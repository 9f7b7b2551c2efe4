import SpectraGQL.Interaction.Phased
import SpectraGQL.Interaction.Progress
import SpectraGQL.Interaction.Schedule

/-! # A value behind a readers–writer lock

Callers read the value together or change it alone, step by step.  Whoever only tries the lock is told
at once whether it is free.

A `Resource` says what holds of the value whenever nobody is writing, and what a writer has left to do
after each of its changes.  If every caller gives the lock back only when that is done
(`Locker.Orderly`), then whoever reads finds the value as it should be (`Locker.reading`).
-/

namespace Interaction

variable {T : Signature} {ι Δ V τ ε σ α : Type}

/-! ## Locks -/

/-- `release` gives back whatever the caller holds. -/
inductive RwOp (Δ : Type) where
  | tryWrite
  | write
  | read
  | get
  | change (delta : Δ)
  | release

def RwOp.Answer (V : Type) : RwOp Δ → Type
  | .tryWrite => Bool
  | .get => V
  | .write | .read | .change _ | .release => Unit

structure RwLock (ι V : Type) where
  value : V
  writer : Option ι := none
  readers : List ι := []

/-! ## Resources -/

/-- What becomes of a value that is changed under a lock: `ok` whenever nobody writes, and `during` a
    write, which goes through phases, looks at the value in some of them and is over in some. -/
structure Resource (Δ V τ : Type) where
  effect : Δ → V → V
  start : τ
  allowed : τ → Δ → Prop
  step : τ → Δ → τ
  looks : τ → Prop
  closes : τ → Prop
  ok : V → Prop
  during : τ → V → Prop
  opened : ∀ {value}, ok value → during start value
  changed : ∀ {phase delta value},
    during phase value → allowed phase delta → during (step phase delta) (effect delta value)
  seen : ∀ {phase value}, during phase value → looks phase → ok value
  closed : ∀ {phase value}, during phase value → closes phase → ok value

namespace RwLock

variable [DecidableEq ι] (effect : Δ → V → V)

/-- Nobody has the lock. -/
def Free (lock : RwLock ι V) : Prop := lock.writer = none ∧ lock.readers = []

def meaning (thread : ι) : (op : RwOp Δ) → RwLock ι V → op.Answer V → RwLock ι V → Prop
  | .tryWrite, before, answer, after =>
    (answer = true ∧ before.Free ∧ after = { before with writer := some thread }) ∨
      (answer = false ∧ ¬before.Free ∧ after = before)
  | .write, before, _, after => before.Free ∧ after = { before with writer := some thread }
  | .read, before, _, after => before.writer = none ∧ after = { before with readers := thread :: before.readers }
  | .get, before, answer, after => answer = before.value ∧ after = before
  | .change delta, before, _, after => after = { before with value := effect delta before.value }
  | .release, before, _, after => after = { before with
      writer := if before.writer = some thread then none else before.writer
      readers := before.readers.erase thread }

/-- Who waits for the lock. -/
def blocked (lock : RwLock ι V) : RwOp Δ → Bool
  | .write => !(lock.writer.isNone && lock.readers.isEmpty)
  | .read => !lock.writer.isNone
  | .tryWrite | .get | .change _ | .release => false

/-- The answer to a call that does not wait, with the effect it has. -/
def reply (lock : RwLock ι V) (thread : ι) : (op : RwOp Δ) → op.Answer V × RwLock ι V
  | .tryWrite =>
    if lock.writer.isNone && lock.readers.isEmpty then (true, { lock with writer := some thread }) else (false, lock)
  | .write => ((), { lock with writer := some thread })
  | .read => ((), { lock with readers := thread :: lock.readers })
  | .get => (lock.value, lock)
  | .change delta => ((), { lock with value := effect delta lock.value })
  | .release => ((), { lock with
      writer := if lock.writer = some thread then none else lock.writer
      readers := lock.readers.erase thread })

omit [DecidableEq ι] in
theorem free_iff (lock : RwLock ι V) : (lock.writer.isNone && lock.readers.isEmpty) = true ↔ lock.Free := by
  simp [Free]

theorem meaning_of_reply {thread : ι} {op : RwOp Δ} {lock : RwLock ι V} (ready : lock.blocked op = false) :
    lock.meaning effect thread op (lock.reply effect thread op).1 (lock.reply effect thread op).2 := by
  cases op with
  | tryWrite =>
    by_cases free : (lock.writer.isNone && lock.readers.isEmpty) = true
    · rw [reply, if_pos free]
      exact .inl ⟨rfl, lock.free_iff.mp free, rfl⟩
    · rw [reply, if_neg free]
      exact .inr ⟨rfl, fun isFree => free (lock.free_iff.mpr isFree), rfl⟩
  | write => exact ⟨lock.free_iff.mp (by simpa [blocked] using ready), rfl⟩
  | read => exact ⟨by simpa [blocked] using ready, rfl⟩
  | get => exact ⟨rfl, rfl⟩
  | change _ | release => rfl

end RwLock

/-! ## Callers -/

inductive RwCall (Δ : Type) (T : Signature) where
  | lock (op : RwOp Δ)
  | other (call : T.Call)

def RwCall.Answer (V : Type) : RwCall Δ T → Type
  | .lock op => op.Answer V
  | .other call => T.Answer call

abbrev rwSignature (Δ V : Type) (T : Signature) : Signature := ⟨RwCall Δ T, RwCall.Answer V⟩

abbrev RwProg (Δ V : Type) (T : Signature) (α : Type) := Prog (rwSignature Δ V T) α

namespace RwProg

def tryWrite : RwProg Δ V T Bool := Prog.perform (S := rwSignature Δ V T) (.lock .tryWrite)

def write : RwProg Δ V T Unit := Prog.perform (S := rwSignature Δ V T) (.lock .write)

def read : RwProg Δ V T Unit := Prog.perform (S := rwSignature Δ V T) (.lock .read)

def get : RwProg Δ V T V := Prog.perform (S := rwSignature Δ V T) (.lock .get)

def change (delta : Δ) : RwProg Δ V T Unit := Prog.perform (S := rwSignature Δ V T) (.lock (.change delta))

def release : RwProg Δ V T Unit := Prog.perform (S := rwSignature Δ V T) (.lock .release)

def other (call : T.Call) : RwProg Δ V T (T.Answer call) := Prog.perform (S := rwSignature Δ V T) (.other call)

end RwProg

/-- Where a caller is: outside, writing and how far it has got, or reading. -/
inductive RwSlot (τ : Type) where
  | outside
  | writing (phase : τ)
  | reading

namespace RwSlot

variable (resource : Resource Δ V τ)

def allowed : RwSlot τ → RwCall Δ T → Prop
  | _, .other _ => True
  | outside, .lock op => op = .tryWrite ∨ op = .write ∨ op = .read
  | writing phase, .lock (.change delta) => resource.allowed phase delta
  | writing phase, .lock op => (op = .get ∧ resource.looks phase) ∨ (op = .release ∧ resource.closes phase)
  | reading, .lock op => op = .get ∨ op = .release

def next : RwSlot τ → Event (rwSignature Δ V T) → RwSlot τ
  | outside, ⟨.lock .tryWrite, true⟩ => writing resource.start
  | outside, ⟨.lock .write, _⟩ => writing resource.start
  | outside, ⟨.lock .read, _⟩ => reading
  | writing phase, ⟨.lock (.change delta), _⟩ => writing (resource.step phase delta)
  | writing _, ⟨.lock .release, _⟩ => outside
  | reading, ⟨.lock .release, _⟩ => outside
  | slot, _ => slot

def automaton : Automaton (rwSignature Δ V T) (RwSlot τ) := ⟨allowed resource, fun _ => True, next resource⟩

theorem next_other (slot : RwSlot τ) (call : T.Call) (answer : (rwSignature Δ V T).Answer (.other call)) :
    next resource slot ⟨.other call, answer⟩ = slot := by
  cases slot <;> rfl

theorem obeys_other {call : T.Call} {rest : T.Answer call → RwProg Δ V T α} {post : α → RwSlot τ → Prop}
    {slot : RwSlot τ} (obeys : ∀ answer, (rest answer).Obeys (automaton resource) post slot) :
    (RwProg.other call >>= rest).Obeys (automaton resource) post slot := by
  refine ⟨by cases slot <;> trivial, fun answer _ => ?_⟩
  rw [show (automaton resource).next slot ⟨.other call, answer⟩ = slot from next_other resource slot call answer]
  exact obeys answer

end RwSlot

/-! ## The lock and its callers -/

namespace RwLock

/-- What holds of a lock and the slots of its callers. -/
structure Sound (resource : Resource Δ V τ) (lock : RwLock ι V) (slots : ι → RwSlot τ) : Prop where
  writer : ∀ thread, (∃ phase, slots thread = .writing phase) ↔ lock.writer = some thread
  readers : ∀ thread, slots thread = .reading ↔ thread ∈ lock.readers
  nodup : lock.readers.Nodup
  exclusive : lock.writer ≠ none → lock.readers = []
  rest : lock.writer = none → resource.ok lock.value
  busy : ∀ thread phase, slots thread = .writing phase → resource.during phase lock.value

variable [DecidableEq ι] {resource : Resource Δ V τ} {lock after : RwLock ι V} {slots : ι → RwSlot τ} {thread : ι}

omit [DecidableEq ι] in
theorem sound_new {value : V} (ok : resource.ok value) :
    Sound resource (⟨value, none, []⟩ : RwLock ι V) fun _ => .outside where
  writer := by simp
  readers := by simp
  nodup := List.nodup_nil
  exclusive := by simp
  rest := fun _ => ok
  busy := by simp

namespace Sound

/-- The writer comes in. -/
theorem enter (sound : Sound resource lock slots) (free : lock.Free) :
    Sound resource { lock with writer := some thread } (Function.update slots thread (.writing resource.start)) where
  writer := fun other => by
    by_cases same : other = thread
    · subst same
      simp
    · have notWriting := (sound.writer other).not.mpr (by simp [free.1])
      simpa [same, Ne.symm same] using notWriting
  readers := fun other => by
    by_cases same : other = thread
    · subst same
      simp [free.2]
    · simpa [same] using sound.readers other
  nodup := sound.nodup
  exclusive := fun _ => free.2
  rest := by simp
  busy := fun other phase => by
    by_cases same : other = thread
    · subst same
      rw [Function.update_self]
      rintro ⟨⟩
      exact resource.opened (sound.rest free.1)
    · rw [Function.update_of_ne same]
      exact sound.busy other phase

/-- A reader comes in. -/
theorem join (sound : Sound resource lock slots) (noWriter : lock.writer = none) (outside : slots thread = .outside) :
    Sound resource { lock with readers := thread :: lock.readers } (Function.update slots thread .reading) where
  writer := fun other => by
    by_cases same : other = thread
    · subst same
      simp [noWriter]
    · simpa [same] using sound.writer other
  readers := fun other => by
    by_cases same : other = thread
    · subst same
      simp
    · simpa [same] using sound.readers other
  nodup := List.nodup_cons.mpr ⟨fun member => by simp [(sound.readers thread).mpr member] at outside, sound.nodup⟩
  exclusive := fun writer => absurd noWriter writer
  rest := sound.rest
  busy := fun other phase => by
    by_cases same : other = thread
    · subst same
      simp
    · simpa [same] using sound.busy other phase

/-- The writer changes the value. -/
theorem change (sound : Sound resource lock slots) {phase : τ} (writing : slots thread = .writing phase) {delta : Δ}
    (allowed : resource.allowed phase delta) :
    Sound resource { lock with value := resource.effect delta lock.value }
      (Function.update slots thread (.writing (resource.step phase delta))) where
  writer := fun other => by
    by_cases same : other = thread
    · subst same
      simpa using (sound.writer other).mp ⟨phase, writing⟩
    · simpa [same] using sound.writer other
  readers := fun other => by
    by_cases same : other = thread
    · subst same
      simpa [writing] using sound.readers other
    · simpa [same] using sound.readers other
  nodup := sound.nodup
  exclusive := sound.exclusive
  rest := fun noWriter => by simp [(sound.writer thread).mp ⟨phase, writing⟩] at noWriter
  busy := fun other phase' => by
    by_cases same : other = thread
    · subst same
      rw [Function.update_self]
      rintro ⟨⟩
      exact resource.changed (sound.busy other phase writing) allowed
    · -- there is no other writer
      rw [Function.update_of_ne same]
      intro otherWriting
      have both :=
        ((sound.writer other).mp ⟨phase', otherWriting⟩).symm.trans ((sound.writer thread).mp ⟨phase, writing⟩)
      exact absurd (Option.some.inj both) same

/-- The writer leaves. -/
theorem leave (sound : Sound resource lock slots) {phase : τ} (writing : slots thread = .writing phase)
    (closes : resource.closes phase) :
    Sound resource { lock with writer := none, readers := lock.readers.erase thread }
      (Function.update slots thread .outside) := by
  have isWriter := (sound.writer thread).mp ⟨phase, writing⟩
  have noReaders : lock.readers = [] := sound.exclusive (by simp [isWriter])
  have alone : ∀ other, other ≠ thread → ∀ phase, slots other ≠ .writing phase := fun other different phase' is =>
    different (Option.some.inj (((sound.writer other).mp ⟨phase', is⟩).symm.trans isWriter))
  exact {
    writer := fun other => by
      by_cases same : other = thread
      · subst same
        simp
      · simpa [same] using alone other same
    readers := fun other => by
      by_cases same : other = thread
      · subst same
        simp [noReaders]
      · simpa [same, noReaders] using sound.readers other
    nodup := by simp [noReaders]
    exclusive := by simp
    rest := fun _ => resource.closed (sound.busy thread phase writing) closes
    busy := fun other phase' => by
      by_cases same : other = thread
      · subst same
        simp
      · simpa [same] using fun is => absurd is (alone other same phase') }

/-- A reader leaves. -/
theorem part (sound : Sound resource lock slots) (reading : slots thread = .reading) :
    Sound resource { lock with readers := lock.readers.erase thread } (Function.update slots thread .outside) where
  writer := fun other => by
    by_cases same : other = thread
    · subst same
      simpa [reading] using sound.writer other
    · simpa [same] using sound.writer other
  readers := fun other => by
    by_cases same : other = thread
    · subst same
      simp [sound.nodup.mem_erase_iff]
    · simpa [same, sound.nodup.mem_erase_iff] using sound.readers other
  nodup := sound.nodup.erase thread
  exclusive := fun writer => by simp [sound.exclusive writer]
  rest := sound.rest
  busy := fun other phase => by
    by_cases same : other = thread
    · subst same
      simp
    · simpa [same] using sound.busy other phase

/-- One allowed call at the lock. -/
theorem access (sound : Sound resource lock slots) {op : RwOp Δ} {answer : op.Answer V}
    (allowed : (slots thread).allowed (T := T) resource (.lock op))
    (effect : lock.meaning resource.effect thread op answer after) :
    Sound resource after (Function.update slots thread ((slots thread).next (T := T) resource ⟨.lock op, answer⟩)) := by
  cases slot : slots thread with
  | outside =>
    rw [slot] at allowed
    obtain rfl | rfl | rfl := allowed
    · rcases effect with ⟨rfl, free, rfl⟩ | ⟨rfl, _, rfl⟩
      · exact sound.enter free
      · rw [show RwSlot.next resource .outside ⟨.lock .tryWrite, false⟩ = slots thread from slot.symm,
          Function.update_eq_self]
        exact sound
    · obtain ⟨free, rfl⟩ := effect
      exact sound.enter free
    · obtain ⟨noWriter, rfl⟩ := effect
      exact sound.join noWriter slot
  | writing phase =>
    rw [slot] at allowed
    cases op with
    | change delta =>
      cases effect
      exact sound.change slot allowed
    | get =>
      obtain ⟨_, rfl⟩ := effect
      rw [show RwSlot.next resource (.writing phase) ⟨.lock .get, answer⟩ = slots thread from slot.symm,
        Function.update_eq_self]
      exact sound
    | release =>
      have closes : resource.closes phase := (allowed.resolve_left (by simp)).2
      cases effect
      rw [if_pos ((sound.writer thread).mp ⟨phase, slot⟩)]
      exact sound.leave slot closes
    | tryWrite | write | read => simp [RwSlot.allowed] at allowed
  | reading =>
    rw [slot] at allowed
    obtain rfl | rfl := allowed
    · obtain ⟨_, rfl⟩ := effect
      rw [show RwSlot.next resource .reading ⟨.lock .get, answer⟩ = slots thread from slot.symm,
        Function.update_eq_self]
      exact sound
    · cases effect
      have notWriter : lock.writer ≠ some thread := fun writer => by
        obtain ⟨phase, writing⟩ := (sound.writer thread).mpr writer
        simp [slot] at writing
      rw [if_neg notWriter]
      exact sound.part slot

end Sound

end RwLock

/-! ## Many callers -/

/-- Callers of one lock, with whatever else they call. -/
structure Locker (T : Signature) (Δ V τ ι ε σ α : Type) where
  resource : Resource Δ V τ
  program : ι → RwProg Δ V T α
  outer : ι → Semantics T σ
  environment : ε → σ → σ → Prop

namespace Locker

variable [DecidableEq ι] (locker : Locker T Δ V τ ι ε σ α)

def meaning (thread : ι) : Semantics (rwSignature Δ V T) (RwLock ι V × σ)
  | .lock op, before, answer, after => ∃ lock, before.1.meaning locker.resource.effect thread op answer lock ∧
      after = (lock, before.2)
  | .other call, before, answer, after => ∃ state, locker.outer thread call before.2 answer state ∧
      after = (before.1, state)

def system : System (rwSignature Δ V T) ι ε (RwLock ι V × σ) α where
  program := locker.program
  meaning := locker.meaning
  environment event before after := locker.environment event before.2 after.2 ∧ after.1 = before.1

/-- Every caller gives back what it holds, and not before it is done. -/
def Orderly : Prop :=
  ∀ thread, (locker.program thread).Obeys (RwSlot.automaton locker.resource) (fun _ slot => slot = .outside) .outside

abbrev Configuration (T : Signature) (Δ V ι ε σ α : Type) := Config (rwSignature Δ V T) ι ε (RwLock ι V × σ) α

/-- Nobody holds the lock. -/
def initial (value : V) (outside : σ) : RwLock ι V × σ := (⟨value, none, []⟩, outside)

variable {locker} {config : Configuration T Δ V ι ε σ α} {value : V} {outside : σ} {thread : ι}

theorem follows (orderly : locker.Orderly) :
    locker.system.Follows (RwSlot.automaton locker.resource) (fun _ _ slot => slot = .outside) fun _ => .outside where
  obeys := orderly
  answers := fun _ => trivial

theorem phaseInvariant : PhaseInvariant locker.system (RwSlot.automaton locker.resource) (fun _ => True)
    fun shared slots => shared.1.Sound locker.resource slots where
  perform := by
    intro thread call before answer after slots _ sound allowed effect
    cases call with
    | lock op =>
      obtain ⟨lock, effect, rfl⟩ := effect
      exact sound.access allowed effect
    | other call =>
      obtain ⟨state, _, rfl⟩ := effect
      rw [show (RwSlot.automaton locker.resource).next (slots thread) ⟨.other call, answer⟩ = slots thread from
        RwSlot.next_other _ _ call answer, Function.update_eq_self]
      exact sound
  environment := by
    intro event before after slots _ sound effect
    rw [effect.2]
    exact sound

/-- The rule: the lock of orderly callers is sound in every configuration. -/
theorem sound (orderly : locker.Orderly) (ok : locker.resource.ok value)
    (reaches : locker.system.Reaches (initial value outside) config) :
    config.moment.shared.1.Sound locker.resource
      ((RwSlot.automaton locker.resource).phases (fun _ => .outside) config.moment.history) :=
  reaches.phaseInvariant (follows orderly) phaseInvariant (fun _ => trivial) (RwLock.sound_new ok)

/-- Whoever looks at the value finds it as it should be. -/
theorem reading (orderly : locker.Orderly) (ok : locker.resource.ok value)
    (reaches : locker.system.Reaches (initial value outside) config) {next : V → RwProg Δ V T α}
    (running : config.threads thread = .running (.call (.lock .get) next)) :
    locker.resource.ok config.moment.shared.1.value := by
  have sound := sound orderly ok reaches
  have allowed : RwSlot.allowed locker.resource
      ((RwSlot.automaton locker.resource).phases (fun _ => .outside) config.moment.history thread) (.lock .get) :=
    (reaches.obeys (orderly thread) (fun _ => trivial) running).1
  cases slot : (RwSlot.automaton locker.resource).phases (fun _ => .outside) config.moment.history thread with
  | outside => simp [slot, RwSlot.allowed] at allowed
  | writing phase =>
    rw [slot] at allowed
    have looks : locker.resource.looks phase := (allowed.resolve_right (by simp)).2
    exact locker.resource.seen (sound.busy thread phase slot) looks
  | reading =>
    -- there is no writer as long as somebody reads
    refine sound.rest (Classical.byContradiction fun writer => ?_)
    have member := (sound.readers thread).mp slot
    rw [sound.exclusive writer] at member
    cases member

/-- Who is told that the lock is not free has met somebody else inside. -/
theorem refused (orderly : locker.Orderly) (ok : locker.resource.ok value)
    (reaches : locker.system.Reaches (initial value outside) config) {next : Bool → RwProg Δ V T α}
    (running : config.threads thread = .running (.call (.lock .tryWrite) next))
    (held : ¬config.moment.shared.1.Free) :
    ∃ other, other ≠ thread ∧
      (RwSlot.automaton locker.resource).phases (fun _ => .outside) config.moment.history other ≠ .outside := by
  have sound := sound orderly ok reaches
  have allowed : RwSlot.allowed locker.resource
      ((RwSlot.automaton locker.resource).phases (fun _ => .outside) config.moment.history thread) (.lock .tryWrite) :=
    (reaches.obeys (orderly thread) (fun _ => trivial) running).1
  have outside : (RwSlot.automaton locker.resource).phases (fun _ => .outside) config.moment.history thread =
      .outside := by
    cases slot : (RwSlot.automaton locker.resource).phases (fun _ => .outside) config.moment.history thread <;>
      simp_all [RwSlot.allowed]
  have inside : ∃ other,
      (RwSlot.automaton locker.resource).phases (fun _ => .outside) config.moment.history other ≠ .outside := by
    cases writer : config.moment.shared.1.writer with
    | some other =>
      obtain ⟨phase, writing⟩ := (sound.writer other).mpr writer
      exact ⟨other, by simp [writing]⟩
    | none =>
      cases readers : config.moment.shared.1.readers with
      | nil => exact absurd ⟨writer, readers⟩ held
      | cons other rest =>
        have reading := (sound.readers other).mpr (by simp [readers])
        exact ⟨other, by simp [reading]⟩
  obtain ⟨other, isInside⟩ := inside
  refine ⟨other, ?_, isInside⟩
  rintro rfl
  exact isInside outside

/-! ## Running callers -/

/-- A call that may wait for the lock. -/
def waits : RwCall Δ T → Bool
  | .lock .write | .lock .read => true
  | _ => false

section Run

variable (answer : (call : T.Call) → σ → T.Answer call × σ)

/-- The calls of one thread while all others stand still. -/
def alone (locker : Locker T Δ V τ ι ε σ α) (thread : ι) :
    (call : RwCall Δ T) → RwLock ι V × σ → call.Answer V × (RwLock ι V × σ)
  | .lock op, shared => ((shared.1.reply locker.resource.effect thread op).1,
      (shared.1.reply locker.resource.effect thread op).2, shared.2)
  | .other call, shared => ((answer call shared.2).1, shared.1, (answer call shared.2).2)

variable {answer}
  (answers : ∀ thread call state, locker.outer thread call state (answer call state).1 (answer call state).2)

include answers

theorem alone_enabled {call : RwCall Δ T} {shared : RwLock ι V × σ}
    (ready : ∀ op, call = .lock op → shared.1.blocked op = false) :
    locker.system.meaning thread call shared (locker.alone answer thread call shared).1
      (locker.alone answer thread call shared).2 := by
  cases call with
  | lock op => exact ⟨_, RwLock.meaning_of_reply _ (ready op rfl), rfl⟩
  | other call => exact ⟨_, answers thread call shared.2, rfl⟩

/-- Whoever waits for nothing can be run to the end, whatever the others have come to. -/
theorem leads_of_not_waits (reaches : locker.system.Reaches (initial value outside) config)
    (never : (locker.program thread).Only fun call => waits call = false) {program : RwProg Δ V T α}
    (running : config.threads thread = .running program) :
    ∃ later result, locker.system.Leads config later ∧
      later.threads = Function.update config.threads thread (.finished result) := by
  have ready : ∀ {call : RwCall Δ T} {shared : RwLock ι V × σ}, waits call = false →
      ∀ op, call = .lock op → shared.1.blocked op = false := by
    rintro _ shared never op rfl
    cases op with
    | write | read => cases never
    | tryWrite | get | change _ | release => rfl
  obtain ⟨later, _, leads, threads, _⟩ :=
    System.leads_alone locker.system (locker.alone answer thread) (fun _ _ => True)
      (fun _ _ _ _ allowed => alone_enabled answers (ready allowed))
      (fun _ _ _ _ _ => ⟨trivial, trivial⟩)
      (reaches.obeys never (fun _ => trivial) running) trivial running
  exact ⟨later, _, leads, threads⟩

omit answers

end Run

/-- Schedules of callers, to whom `answer` replies outside the lock. -/
def scheduler (locker : Locker T Δ V τ ι ε σ α) (answer : (call : T.Call) → σ → T.Answer call × σ)
    (answers : ∀ thread call state, locker.outer thread call state (answer call state).1 (answer call state).2) :
    Scheduler locker.system Unit where
  answer _ thread
    | .lock op, shared => if shared.1.blocked op then none else some (locker.alone answer thread (.lock op) shared)
    | .other call, shared => some (locker.alone answer thread (.other call) shared)
  event _ _ := none
  answer_sound := by
    intro _ thread call before result replies
    cases call with
    | lock op =>
      obtain ⟨ready, same⟩ := Option.ite_none_left_eq_some.mp replies
      cases same
      refine alone_enabled answers ?_
      rintro _ ⟨⟩
      simpa using ready
    | other call =>
      cases replies
      exact alone_enabled answers (by simp)
  event_sound := by simp

end Locker

end Interaction
