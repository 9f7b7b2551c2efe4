import SpectraGQL.Interaction.RwLock
import SpectraGQL.Gateway.Context
import Mathlib.Algebra.BigOperators.Group.Finset.Piecewise
import Mathlib.Algebra.GroupWithZero.Nat
import Mathlib.Data.Fintype.BigOperators

/-! # The traffic recorder (`admin/traffic.rs`)

Every request leaves a record.  Counters are added to without a lock; the buffer of the newest records
is only written to if nobody else has its lock at that moment, so that no request ever waits for it.
The dashboard reads and clears the buffer under the lock.

`traffic_buffer_newest` says what the buffer holds and what a reader is shown, `traffic_counted` what
the counters have come to once all is quiet.
-/

namespace SpectraGQL.Admin

open Interaction SpectraGQL.Http SpectraGQL.Protocol SpectraGQL.Gateway

variable {L : Type}

/-- A record with the time that the request took; `L` is `f64`. -/
structure TimedRecord (L : Type) extends TrafficRecord where
  latencyMs : L

/-- The arithmetic of `f64`, of which nothing is assumed. -/
structure LatencyArithmetic (L : Type) where
  /-- In whole microseconds, none if negative. -/
  micros : L → Nat
  /-- The average of a total in microseconds, to two places. -/
  ofTotal : Nat → Nat → L
  /-- The mean of some latencies, to two places. -/
  mean : List L → L
  zero : L

inductive TrafficCounter where
  | totalRequests
  | modeBRequests
  | modeARequests
  | errorRequests
  | totalLatencyUs
  | recordedCount
  deriving DecidableEq, Repr

inductive CounterCall where
  | fetchAdd (counter : TrafficCounter) (amount : Nat)
  | load (counter : TrafficCounter)
  | store (counter : TrafficCounter) (value : Nat)
  deriving DecidableEq, Repr

def CounterCall.Answer : CounterCall → Type
  | .load _ => Nat
  | .fetchAdd _ _ | .store _ _ => Unit

abbrev counterSignature : Signature := ⟨CounterCall, CounterCall.Answer⟩

/-- `AtomicU64`: every call is one step. -/
def CounterCall.meaning : Semantics counterSignature (TrafficCounter → Nat)
  | .fetchAdd counter amount, before, _, after =>
    after = Function.update before counter ((before counter + amount) % 2 ^ 64)
  | .load counter, before, answer, after => answer = before counter ∧ after = before
  | .store counter value, before, _, after => after = Function.update before counter value

def CounterCall.reply : (call : CounterCall) → (TrafficCounter → Nat) → call.Answer × (TrafficCounter → Nat)
  | .fetchAdd counter amount, counters =>
    ((), Function.update counters counter ((counters counter + amount) % 2 ^ 64))
  | .load counter, counters => (counters counter, counters)
  | .store counter value, counters => ((), Function.update counters counter value)

theorem CounterCall.meaning_reply (call : CounterCall) (counters : TrafficCounter → Nat) :
    CounterCall.meaning call counters (call.reply counters).1 (call.reply counters).2 := by
  cases call with
  | load _ => exact ⟨rfl, rfl⟩
  | fetchAdd _ _ | store _ _ => rfl

/-- What is done to the buffer under its lock. -/
inductive BufferChange (L : Type) where
  | pushFront (record : TimedRecord L)
  /-- `pop_back` as long as there are more than `max_entries`. -/
  | truncate
  | clear

abbrev Buffer (L : Type) := List (TimedRecord L)

def BufferChange.effect (maxEntries : Nat) : BufferChange L → Buffer L → Buffer L
  | .pushFront record, buffer => record :: buffer
  | .truncate, buffer => buffer.take maxEntries
  | .clear, _ => []

structure TrafficStats (L : Type) where
  totalRequests : Nat
  asyncRequests : Nat
  syncRequests : Nat
  modeBRequests : Nat
  modeARequests : Nat
  errorRequests : Nat
  avgLatencyMs : L
  bufferSize : Nat

structure TrafficResponse (L : Type) where
  stats : TrafficStats L
  records : List (TimedRecord L)

abbrev RecorderProg (L α : Type) := RwProg (BufferChange L) (Buffer L) counterSignature α

namespace TrafficRecorder

/-- `new`: a buffer of no entries has 200. -/
def capacity (maxEntries : Nat) : Nat := if maxEntries = 0 then 200 else maxEntries

def isModeB (mode : String) : Bool := containsText mode "Async" || containsText mode "Mode B"

def isModeA (mode : String) : Bool := containsText mode "Sync" || containsText mode "Mode A"

/-- A status of an error, or a command that was not dispatched. -/
def hasFailed (record : TrafficRecord) : Bool :=
  400 ≤ record.statusCode || record.receiptStatus == some "DISPATCH_FAILED"

def isError (record : TrafficRecord) : Bool := hasFailed record || record.errorPreview.isSome

def fetchAdd (counter : TrafficCounter) (amount : Nat) : RecorderProg L Unit :=
  RwProg.other (T := counterSignature) (.fetchAdd counter amount)

def load (counter : TrafficCounter) : RecorderProg L Nat := RwProg.other (T := counterSignature) (.load counter)

def store (counter : TrafficCounter) (value : Nat) : RecorderProg L Unit :=
  RwProg.other (T := counterSignature) (.store counter value)

variable (latencies : LatencyArithmetic L)

def countMode (record : TrafficRecord) : RecorderProg L Unit :=
  if isModeB record.mode then fetchAdd .modeBRequests 1
  else if isModeA record.mode then fetchAdd .modeARequests 1
  else pure ()

def countError (record : TrafficRecord) : RecorderProg L Unit :=
  if isError record then fetchAdd .errorRequests 1 else pure ()

/-- The buffer is left alone unless its lock is free. -/
def pushRecord (record : TimedRecord L) : RecorderProg L Unit := do
  if ← RwProg.tryWrite then
    RwProg.change (.pushFront record)
    RwProg.change .truncate
    RwProg.release

def record (record : TimedRecord L) : RecorderProg L Unit := do
  fetchAdd .totalRequests 1
  countMode record.toTrafficRecord
  countError record.toTrafficRecord
  fetchAdd .totalLatencyUs (latencies.micros record.latencyMs)
  fetchAdd .recordedCount 1
  pushRecord record

/-- The application that is asked for, if it is one. -/
def scope : Option String → Option String
  | some app => if app ≠ "" ∧ app ≠ "all" then some app else none
  | none => none

/-- The records that are shown of a buffer. -/
def shown (limit : Nat) (appFilter : Option String) (buffer : Buffer L) : List (TimedRecord L) :=
  (buffer.filter fun record =>
    match scope appFilter with
    | some app => eqIgnoreAsciiCase record.appId app
    | none => true).take (if limit = 0 then buffer.length else limit)

def response (records : List (TimedRecord L)) (total modeB modeA errors : Nat) (avgLatency : L) :
    TrafficResponse L where
  stats := {
    totalRequests := total
    asyncRequests := modeB
    syncRequests := modeA
    modeBRequests := modeB
    modeARequests := modeA
    errorRequests := errors
    avgLatencyMs := avgLatency
    bufferSize := records.length }
  records := records

/-- The statistics of one application are those of the records shown. -/
def scopedResponse (app : String) (records : List (TimedRecord L)) : TrafficResponse L :=
  let own := records.filter fun record => eqIgnoreAsciiCase record.appId app
  response records own.length (own.countP fun record => isModeB record.mode)
    (own.countP fun record => isModeA record.mode) (own.countP fun record => hasFailed record.toTrafficRecord)
    (if 0 < own.length then latencies.mean (own.map TimedRecord.latencyMs) else latencies.zero)

/-- The average over so many records. -/
def averageOver (count : Nat) : RecorderProg L L := do
  if 0 < count then
    let totalUs ← load .totalLatencyUs
    return latencies.ofTotal totalUs count
  else return latencies.zero

/-- Otherwise the statistics are those of the counters. -/
def globalResponse (records : List (TimedRecord L)) : RecorderProg L (TrafficResponse L) := do
  let total ← load .totalRequests
  let modeB ← load .modeBRequests
  let modeA ← load .modeARequests
  let errors ← load .errorRequests
  let count ← load .recordedCount
  return response records total modeB modeA errors (← averageOver latencies count)

def getResponseWithFilter (limit : Nat) (appFilter : Option String) : RecorderProg L (TrafficResponse L) := do
  RwProg.read
  let buffer ← RwProg.get
  RwProg.release
  let records := shown limit appFilter buffer
  match scope appFilter with
  | some app => return scopedResponse latencies app records
  | none => globalResponse latencies records

def clear : RecorderProg L Unit := do
  RwProg.write
  RwProg.change .clear
  RwProg.release
  store .totalLatencyUs 0
  store .recordedCount 0

end TrafficRecorder

/-! ## The lock of the buffer -/

/-- How far a writer has got with the buffer. -/
inductive BufferPhase where
  | entered
  | overfull
  | settled
  deriving DecidableEq

/-- Nobody sees more records than there may be. -/
def bufferResource (L : Type) (maxEntries : Nat) : Resource (BufferChange L) (Buffer L) BufferPhase where
  effect := BufferChange.effect maxEntries
  start := .entered
  allowed phase change :=
    match change with
    | .pushFront _ | .clear => phase = .entered
    | .truncate => phase = .overfull
  step phase change :=
    match change with
    | .pushFront _ => .overfull
    | .truncate | .clear => .settled
  looks _ := False
  closes phase := phase = .settled
  ok buffer := buffer.length ≤ maxEntries
  during phase buffer := buffer.length ≤ maxEntries ∨ (phase = .overfull ∧ buffer.length ≤ maxEntries + 1)
  opened ok := .inl ok
  changed := by
    intro phase change buffer during allowed
    cases change with
    | pushFront entry =>
      obtain rfl : phase = .entered := allowed
      exact .inr ⟨rfl, Nat.succ_le_succ (during.resolve_right (by simp))⟩
    | truncate => exact .inl (List.length_take_le _ _)
    | clear => exact .inl (Nat.zero_le _)
  seen := fun _ looks => looks.elim
  closed := by
    rintro phase buffer (few | ⟨rfl, _⟩) closes
    · exact few
    · cases closes

/-- What is asked of the recorder. -/
inductive RecorderTask (L : Type) where
  | record (entry : TimedRecord L)
  | respond (limit : Nat) (appFilter : Option String)
  | clear

def RecorderTask.program (latencies : LatencyArithmetic L) :
    RecorderTask L → RecorderProg L (Option (TrafficResponse L))
  | .record entry => do
    TrafficRecorder.record latencies entry
    return none
  | .respond limit appFilter => do return some (← TrafficRecorder.getResponseWithFilter latencies limit appFilter)
  | .clear => do
    TrafficRecorder.clear
    return none

/-- Any number of calls of one recorder. -/
structure RecorderTraffic (L ι : Type) where
  latencies : LatencyArithmetic L
  maxEntries : Nat
  tasks : ι → RecorderTask L

namespace RecorderTraffic

variable {ι : Type} (traffic : RecorderTraffic L ι)

def cap : Nat := TrafficRecorder.capacity traffic.maxEntries

def locker : Locker counterSignature (BufferChange L) (Buffer L) BufferPhase ι Empty (TrafficCounter → Nat)
    (Option (TrafficResponse L)) where
  resource := bufferResource L traffic.cap
  program thread := (traffic.tasks thread).program traffic.latencies
  outer _ := CounterCall.meaning
  environment _ _ _ := False

end RecorderTraffic

namespace TrafficRecorder

variable {maxEntries : Nat} (latencies : LatencyArithmetic L)

theorem obeys_pushRecord (entry : TimedRecord L) :
    (pushRecord entry).Obeys (RwSlot.automaton (bufferResource L maxEntries)) (fun _ slot => slot = .outside)
      .outside := by
  refine ⟨.inl rfl, fun taken _ => ?_⟩
  cases taken with
  | false => rfl
  | true => exact ⟨rfl, fun _ _ => ⟨rfl, fun _ _ => ⟨.inr ⟨rfl, rfl⟩, fun _ _ => rfl⟩⟩⟩

theorem obeys_countMode (entry : TrafficRecord) :
    (countMode entry : RecorderProg L Unit).Obeys (RwSlot.automaton (bufferResource L maxEntries))
      (fun _ slot => slot = .outside) .outside := by
  unfold countMode
  split
  · exact ⟨trivial, fun _ _ => rfl⟩
  · split
    · exact ⟨trivial, fun _ _ => rfl⟩
    · rfl

theorem obeys_countError (entry : TrafficRecord) :
    (countError entry : RecorderProg L Unit).Obeys (RwSlot.automaton (bufferResource L maxEntries))
      (fun _ slot => slot = .outside) .outside := by
  unfold countError
  split
  · exact ⟨trivial, fun _ _ => rfl⟩
  · rfl

theorem obeys_record (entry : TimedRecord L) :
    (record latencies entry).Obeys (RwSlot.automaton (bufferResource L maxEntries))
      (fun _ slot => slot = .outside) .outside := by
  refine ⟨trivial, fun _ _ => (obeys_countMode _).bind ?_⟩
  rintro _ _ rfl
  refine (obeys_countError _).bind ?_
  rintro _ _ rfl
  exact ⟨trivial, fun _ _ => ⟨trivial, fun _ _ => obeys_pushRecord entry⟩⟩

theorem obeys_globalResponse (records : List (TimedRecord L)) :
    (globalResponse latencies records).Obeys (RwSlot.automaton (bufferResource L maxEntries))
      (fun _ slot => slot = .outside) .outside := by
  have average : ∀ count, (averageOver latencies count).Obeys (RwSlot.automaton (bufferResource L maxEntries))
      (fun _ slot => slot = .outside) .outside := by
    intro count
    unfold averageOver
    split
    · exact ⟨trivial, fun _ _ => rfl⟩
    · rfl
  exact ⟨trivial, fun _ _ => ⟨trivial, fun _ _ => ⟨trivial, fun _ _ => ⟨trivial, fun _ _ => ⟨trivial, fun count _ =>
    (average count).bind fun _ _ same => same⟩⟩⟩⟩⟩

theorem obeys_getResponseWithFilter (limit : Nat) (appFilter : Option String) :
    (getResponseWithFilter latencies limit appFilter).Obeys (RwSlot.automaton (bufferResource L maxEntries))
      (fun _ slot => slot = .outside) .outside := by
  refine ⟨.inr (.inr rfl), fun _ _ => ⟨.inl rfl, fun buffer _ => ⟨.inr rfl, fun _ _ => ?_⟩⟩⟩
  cases scope appFilter with
  | some app => rfl
  | none => exact obeys_globalResponse latencies _

theorem obeys_clear :
    (clear : RecorderProg L Unit).Obeys (RwSlot.automaton (bufferResource L maxEntries))
      (fun _ slot => slot = .outside) .outside :=
  ⟨.inr (.inl rfl), fun _ _ => ⟨rfl, fun _ _ => ⟨.inr ⟨rfl, rfl⟩, fun _ _ => ⟨trivial, fun _ _ =>
    ⟨trivial, fun _ _ => rfl⟩⟩⟩⟩⟩

end TrafficRecorder

/-! ## The buffer -/

namespace RecorderTraffic

variable {ι : Type} [DecidableEq ι] {traffic : RecorderTraffic L ι}

abbrev Configuration (L ι : Type) :=
  Locker.Configuration counterSignature (BufferChange L) (Buffer L) ι Empty (TrafficCounter → Nat)
    (Option (TrafficResponse L))

abbrev History (L ι : Type) :=
  List (Label (rwSignature (BufferChange L) (Buffer L) counterSignature) ι Empty (Option (TrafficResponse L)))

/-- Nothing has been recorded. -/
def fresh : RwLock ι (Buffer L) × (TrafficCounter → Nat) := Locker.initial [] fun _ => 0

omit [DecidableEq ι] in
theorem orderly (traffic : RecorderTraffic L ι) : traffic.locker.Orderly := by
  intro thread
  change ((traffic.tasks thread).program traffic.latencies).Obeys _ _ _
  cases traffic.tasks thread with
  | record entry => exact (TrafficRecorder.obeys_record _ entry).bind fun _ _ same => same
  | respond limit appFilter =>
    exact (TrafficRecorder.obeys_getResponseWithFilter _ limit appFilter).bind fun _ _ same => same
  | clear => exact TrafficRecorder.obeys_clear.bind fun _ _ same => same

/-- What a step does to the list of those who have pushed their record since the last clear, newest first. -/
def pushersStep (pushers : List (ι × TimedRecord L)) :
    Label (rwSignature (BufferChange L) (Buffer L) counterSignature) ι Empty (Option (TrafficResponse L)) →
      List (ι × TimedRecord L)
  | .perform thread ⟨.lock (.change (.pushFront entry)), _⟩ => (thread, entry) :: pushers
  | .perform _ ⟨.lock (.change .clear), _⟩ => []
  | _ => pushers

def pushers (history : History L ι) : List (ι × TimedRecord L) := history.foldl pushersStep []

omit [DecidableEq ι] in
theorem pushers_append (history : History L ι)
    (label : Label (rwSignature (BufferChange L) (Buffer L) counterSignature) ι Empty (Option (TrafficResponse L))) :
    pushers (history ++ [label]) = pushersStep (pushers history) label := by
  simp [pushers]

/-- Up to what a writer has not dropped yet, the buffer holds the newest records. -/
theorem take_buffer {config : Configuration L ι} (reaches : traffic.locker.system.Reaches fresh config) :
    config.moment.shared.1.value.take traffic.cap =
      ((pushers config.moment.history).map Prod.snd).take traffic.cap := by
  induction reaches with
  | initial => rfl
  | @step config config' label earlier step inductionHypothesis =>
    rw [step.history_eq, pushers_append]
    cases step with
    | start _ | finish _ => exact inductionHypothesis
    | environment effect => exact effect.1.elim
    | @perform thread call next answer shared running effect =>
      cases call with
      | other call =>
        obtain ⟨state, _, rfl⟩ := effect
        exact inductionHypothesis
      | lock op =>
        obtain ⟨lock, effect, rfl⟩ := effect
        cases op with
        | tryWrite =>
          rcases effect with ⟨_, _, rfl⟩ | ⟨_, _, rfl⟩ <;> exact inductionHypothesis
        | write | read | get =>
          obtain ⟨_, rfl⟩ := effect
          exact inductionHypothesis
        | release =>
          cases effect
          exact inductionHypothesis
        | change change =>
          cases effect
          cases change with
          | pushFront entry =>
            change (entry :: config.moment.shared.1.value).take _ =
              (entry :: (pushers config.moment.history).map Prod.snd).take _
            generalize traffic.cap = cap at inductionHypothesis
            cases cap with
            | zero => rfl
            | succ cap =>
              have before := congrArg (List.take cap) inductionHypothesis
              rw [List.take_take, List.take_take, Nat.min_eq_left (Nat.le_succ cap)] at before
              simp [before]
          | truncate =>
            change (config.moment.shared.1.value.take traffic.cap).take traffic.cap = _
            rw [List.take_take, Nat.min_self]
            exact inductionHypothesis
          | clear => rfl

end RecorderTraffic

/-! ## What a call of the recorder does -/

/-- What a record adds to the counter of its mode. -/
def modeAdds (entry : TrafficRecord) : List (TrafficCounter × Nat) :=
  if TrafficRecorder.isModeB entry.mode then [(.modeBRequests, 1)]
  else if TrafficRecorder.isModeA entry.mode then [(.modeARequests, 1)]
  else []

def errorAdds (entry : TrafficRecord) : List (TrafficCounter × Nat) :=
  if TrafficRecorder.isError entry then [(.errorRequests, 1)] else []

/-- All that a call adds to the counters. -/
def RecorderTask.adds (latencies : LatencyArithmetic L) : RecorderTask L → List (TrafficCounter × Nat)
  | .record entry =>
    [(.totalRequests, 1)] ++ modeAdds entry.toTrafficRecord ++ errorAdds entry.toTrafficRecord ++
      [(.totalLatencyUs, latencies.micros entry.latencyMs)] ++ [(.recordedCount, 1)]
  | .respond _ _ | .clear => []

structure RecorderTrack (L : Type) where
  task : RecorderTask L
  pushed : Bool
  refused : Bool
  adds : List (TrafficCounter × Nat)
  got : Option (Buffer L)

namespace RecorderTrack

def start (task : RecorderTask L) : RecorderTrack L := ⟨task, false, false, [], none⟩

/-- A record is pushed once, by the call that was asked for it; only a clear sets counters back. -/
def allowed (track : RecorderTrack L) : RwCall (BufferChange L) counterSignature → Prop
  | .lock (.change (.pushFront entry)) => track.task = .record entry ∧ track.pushed = false
  | .other (.store counter _) => track.task = .clear ∧ (counter = .totalLatencyUs ∨ counter = .recordedCount)
  | _ => True

def next (track : RecorderTrack L) :
    Event (rwSignature (BufferChange L) (Buffer L) counterSignature) → RecorderTrack L
  | ⟨.lock (.change (.pushFront _)), _⟩ => { track with pushed := true }
  | ⟨.lock .tryWrite, false⟩ => { track with refused := true }
  | ⟨.lock .get, buffer⟩ => { track with got := some buffer }
  | ⟨.other (.fetchAdd counter amount), _⟩ => { track with adds := track.adds ++ [(counter, amount)] }
  | _ => track

def automaton : Automaton (rwSignature (BufferChange L) (Buffer L) counterSignature) (RecorderTrack L) :=
  ⟨allowed, fun _ => True, next⟩

theorem task_next (track : RecorderTrack L) (event : Event (rwSignature (BufferChange L) (Buffer L) counterSignature)) :
    (track.next event).task = track.task := by
  unfold next
  split <;> rfl

theorem pushed_next (track : RecorderTrack L) {event : Event (rwSignature (BufferChange L) (Buffer L) counterSignature)}
    (pushed : track.pushed = true) : (track.next event).pushed = true := by
  unfold next
  split <;> simp [pushed]

/-- A call that is over has added what it had to; a record is pushed or refused, and a reader is shown
    what it has read. -/
def Over (latencies : LatencyArithmetic L) (task : RecorderTask L) (result : Option (TrafficResponse L))
    (track : RecorderTrack L) : Prop :=
  track.adds = task.adds latencies ∧ (∀ entry, task = .record entry → track.pushed = true ∨ track.refused = true) ∧
    ∀ limit appFilter, task = .respond limit appFilter → ∃ buffer response, track.got = some buffer ∧
      result = some response ∧ response.records = TrafficRecorder.shown limit appFilter buffer

end RecorderTrack

namespace TrafficRecorder

open RecorderTrack

variable (latencies : LatencyArithmetic L) (track : RecorderTrack L)

theorem track_countMode (entry : TrafficRecord) :
    (countMode entry : RecorderProg L Unit).Obeys RecorderTrack.automaton
      (fun _ after => after = { track with adds := track.adds ++ modeAdds entry }) track := by
  unfold countMode modeAdds
  split
  · exact ⟨trivial, fun _ _ => rfl⟩
  · split
    · exact ⟨trivial, fun _ _ => rfl⟩
    · exact congrArg (fun adds => { track with adds := adds }) (List.append_nil track.adds).symm

theorem track_countError (entry : TrafficRecord) :
    (countError entry : RecorderProg L Unit).Obeys RecorderTrack.automaton
      (fun _ after => after = { track with adds := track.adds ++ errorAdds entry }) track := by
  unfold countError errorAdds
  split
  · exact ⟨trivial, fun _ _ => rfl⟩
  · exact congrArg (fun adds => { track with adds := adds }) (List.append_nil track.adds).symm

theorem track_pushRecord (entry : TimedRecord L) (isTask : track.task = .record entry) (fresh : track.pushed = false) :
    (pushRecord entry).Obeys RecorderTrack.automaton
      (fun _ after => after.adds = track.adds ∧ (after.pushed = true ∨ after.refused = true)) track := by
  refine ⟨trivial, fun taken _ => ?_⟩
  cases taken with
  | false => exact ⟨rfl, .inr rfl⟩
  | true => exact ⟨⟨isTask, fresh⟩, fun _ _ => ⟨trivial, fun _ _ => ⟨trivial, fun _ _ => ⟨rfl, .inl rfl⟩⟩⟩⟩

theorem track_record (entry : TimedRecord L) :
    (record latencies entry).Obeys RecorderTrack.automaton
      (fun _ after => after.adds = (RecorderTask.record entry).adds latencies ∧
        (after.pushed = true ∨ after.refused = true)) (.start (.record entry)) := by
  refine ⟨trivial, fun _ _ => (track_countMode _ _).bind ?_⟩
  rintro _ _ rfl
  refine (track_countError _ _).bind ?_
  rintro _ _ rfl
  exact ⟨trivial, fun _ _ => ⟨trivial, fun _ _ => track_pushRecord _ entry rfl rfl⟩⟩

/-- What is read of the counters leaves no trace. -/
theorem track_globalResponse (records : List (TimedRecord L)) :
    (globalResponse latencies records).Obeys RecorderTrack.automaton
      (fun response after => after = track ∧ response.records = records) track := by
  have average : ∀ count, (averageOver latencies count).Obeys RecorderTrack.automaton
      (fun _ after => after = track) track := by
    intro count
    unfold averageOver
    split
    · exact ⟨trivial, fun _ _ => rfl⟩
    · rfl
  exact ⟨trivial, fun _ _ => ⟨trivial, fun _ _ => ⟨trivial, fun _ _ => ⟨trivial, fun _ _ => ⟨trivial, fun count _ =>
    (average count).bind fun _ _ same => ⟨same, rfl⟩⟩⟩⟩⟩⟩

theorem track_getResponseWithFilter (limit : Nat) (appFilter : Option String) :
    (getResponseWithFilter latencies limit appFilter).Obeys RecorderTrack.automaton
      (fun response after => after.adds = track.adds ∧ ∃ buffer, after.got = some buffer ∧
        response.records = shown limit appFilter buffer) track := by
  refine ⟨trivial, fun _ _ => ⟨trivial, fun buffer _ => ⟨trivial, fun _ _ => ?_⟩⟩⟩
  cases scope appFilter with
  | some app => exact ⟨rfl, buffer, rfl, rfl⟩
  | none =>
    refine (track_globalResponse latencies _ _).mono ?_
    rintro response _ ⟨rfl, records⟩
    exact ⟨rfl, buffer, rfl, records⟩

theorem track_program (task : RecorderTask L) :
    (task.program latencies).Obeys RecorderTrack.automaton (Over latencies task) (.start task) := by
  cases task with
  | record entry =>
    exact (track_record latencies entry).bind fun _ _ ended => ⟨ended.1, fun _ _ => ended.2, by simp⟩
  | clear =>
    exact ⟨trivial, fun _ _ => ⟨trivial, fun _ _ => ⟨trivial, fun _ _ => ⟨⟨rfl, .inl rfl⟩, fun _ _ =>
      ⟨⟨rfl, .inr rfl⟩, fun _ _ => ⟨rfl, by simp, by simp⟩⟩⟩⟩⟩⟩
  | respond limit appFilter =>
    refine (track_getResponseWithFilter latencies _ limit appFilter).bind ?_
    rintro response track ⟨adds, buffer, got, records⟩
    refine ⟨adds, by simp, ?_⟩
    rintro _ _ ⟨⟩
    exact ⟨buffer, response, got, rfl, records⟩

end TrafficRecorder

namespace RecorderTraffic

variable {ι : Type} [DecidableEq ι] {traffic : RecorderTraffic L ι} {config : Configuration L ι}

theorem follows (traffic : RecorderTraffic L ι) :
    traffic.locker.system.Follows RecorderTrack.automaton
      (fun thread => RecorderTrack.Over traffic.latencies (traffic.tasks thread))
      fun thread => .start (traffic.tasks thread) where
  obeys := fun thread => TrafficRecorder.track_program traffic.latencies (traffic.tasks thread)
  answers := fun _ => trivial

/-- What a call has done so far. -/
def track (traffic : RecorderTraffic L ι) (history : History L ι) : ι → RecorderTrack L :=
  RecorderTrack.automaton.phases (fun thread => .start (traffic.tasks thread)) history

theorem task_track (history : History L ι) (thread : ι) :
    (traffic.track history thread).task = traffic.tasks thread := by
  refine RecorderTrack.automaton.phaseOf_induction (fun track => track.task = traffic.tasks thread) ?_ rfl thread
    history
  exact fun track event same => (RecorderTrack.task_next track event).trans same

theorem track_perform (history : History L ι) (thread : ι)
    (event : Event (rwSignature (BufferChange L) (Buffer L) counterSignature)) :
    traffic.track (history ++ [.perform thread event]) =
      Function.update (traffic.track history) thread ((traffic.track history thread).next event) :=
  RecorderTrack.automaton.phases_perform _ history thread event

/-- Whoever is among the pushers has pushed the record that it was asked for, once. -/
theorem pushers_sound (reaches : traffic.locker.system.Reaches fresh config) :
    ((pushers config.moment.history).map Prod.fst).Nodup ∧
      ∀ thread entry, (thread, entry) ∈ pushers config.moment.history →
        traffic.tasks thread = .record entry ∧ (traffic.track config.moment.history thread).pushed = true := by
  induction reaches with
  | initial => exact ⟨List.nodup_nil, by simp [System.initial, pushers]⟩
  | @step config config' label earlier step inductionHypothesis =>
    rw [step.history_eq, pushers_append]
    cases step with
    | start _ | finish _ =>
      rw [track, RecorderTrack.automaton.phases_silent _ _ (by simp)]
      exact inductionHypothesis
    | environment effect => exact effect.1.elim
    | @perform performer call next answer shared running _ =>
      have allowed : (traffic.track config.moment.history performer).allowed call :=
        (earlier.obeys (traffic.follows.obeys performer) traffic.follows.answers running).1
      rw [track_perform]
      obtain ⟨nodup, own⟩ := inductionHypothesis
      -- who has pushed once has done so for good
      have kept : ∀ thread entry, (thread, entry) ∈ pushers config.moment.history →
          traffic.tasks thread = .record entry ∧
          (Function.update (traffic.track config.moment.history) performer
            ((traffic.track config.moment.history performer).next ⟨call, answer⟩) thread).pushed = true := by
        intro thread entry member
        obtain ⟨isTask, pushed⟩ := own thread entry member
        refine ⟨isTask, ?_⟩
        by_cases same : thread = performer
        · subst same
          rw [Function.update_self]
          exact RecorderTrack.pushed_next _ pushed
        · rwa [Function.update_of_ne same]
      cases call with
      | other _ => exact ⟨nodup, kept⟩
      | lock op =>
        cases op with
        | tryWrite | write | read | get | release => exact ⟨nodup, kept⟩
        | change change =>
          cases change with
          | truncate => exact ⟨nodup, kept⟩
          | clear => exact ⟨List.nodup_nil, by rintro _ _ ⟨⟩⟩
          | pushFront entry =>
            obtain ⟨isTask, notPushed⟩ := allowed
            refine ⟨List.nodup_cons.mpr ⟨fun again => ?_, nodup⟩, fun thread entry' member => ?_⟩
            · obtain ⟨⟨_, entry'⟩, member, rfl⟩ := List.mem_map.mp again
              exact absurd (own _ entry' member).2 (by simp [notPushed])
            · rcases List.mem_cons.mp member with same | member
              · cases same
                rw [Function.update_self]
                exact ⟨(task_track config.moment.history performer).symm.trans isTask, rfl⟩
              · exact kept thread entry' member

/-- The buffer that the newest records make. -/
def newest (traffic : RecorderTraffic L ι) (history : History L ι) : Buffer L :=
  ((pushers history).map Prod.snd).take traffic.cap

theorem buffer_of_ok (reaches : traffic.locker.system.Reaches fresh config)
    (few : config.moment.shared.1.value.length ≤ traffic.cap) :
    config.moment.shared.1.value = traffic.newest config.moment.history := by
  rw [newest, ← take_buffer reaches, List.take_of_length_le few]

theorem sound (reaches : traffic.locker.system.Reaches fresh config) :
    config.moment.shared.1.Sound traffic.locker.resource
      ((RwSlot.automaton traffic.locker.resource).phases (fun _ => .outside) config.moment.history) :=
  Locker.sound (orderly traffic) (Nat.zero_le _) reaches

/-- What a reader has got, it has got by reading. -/
theorem got_mem {history : History L ι} {thread : ι} {buffer : Buffer L}
    (got : (traffic.track history thread).got = some buffer) :
    ∃ past future, history = past ++ .perform thread ⟨.lock .get, buffer⟩ :: future := by
  obtain ⟨past, ⟨call, answer⟩, future, rfl, notYet, now⟩ :=
    Automaton.phases_turn (fun track : RecorderTrack L => track.got = some buffer) (by rintro ⟨⟩) got
  cases call with
  | other call => cases call <;> exact absurd now notYet
  | lock op =>
    cases op with
    | get =>
      cases now
      exact ⟨past, future, rfl⟩
    | change change => cases change <;> exact absurd now notYet
    | tryWrite => cases answer <;> exact absurd now notYet
    | write | read | release => exact absurd now notYet

theorem pushed_mem {history : History L ι} {thread : ι} (pushed : (traffic.track history thread).pushed = true) :
    ∃ past entry answer future,
      history = past ++ .perform thread ⟨.lock (.change (.pushFront entry)), answer⟩ :: future := by
  obtain ⟨past, ⟨call, answer⟩, future, rfl, notYet, now⟩ :=
    Automaton.phases_turn (fun track : RecorderTrack L => track.pushed = true) (by rintro ⟨⟩) pushed
  cases call with
  | other call => cases call <;> exact absurd now notYet
  | lock op =>
    cases op with
    | change change =>
      cases change with
      | pushFront entry => exact ⟨past, entry, answer, future, rfl⟩
      | truncate | clear => exact absurd now notYet
    | tryWrite => cases answer <;> exact absurd now notYet
    | get | write | read | release => exact absurd now notYet

theorem refused_mem {history : History L ι} {thread : ι} (refused : (traffic.track history thread).refused = true) :
    ∃ past future, history = past ++ .perform thread ⟨.lock .tryWrite, false⟩ :: future := by
  obtain ⟨past, ⟨call, answer⟩, future, rfl, notYet, now⟩ :=
    Automaton.phases_turn (fun track : RecorderTrack L => track.refused = true) (by rintro ⟨⟩) refused
  cases call with
  | other call => cases call <;> exact absurd now notYet
  | lock op =>
    cases op with
    | tryWrite =>
      cases answer with
      | false => exact ⟨past, future, rfl⟩
      | true => exact absurd now notYet
    | change change => cases change <;> exact absurd now notYet
    | get | write | read | release => exact absurd now notYet

end RecorderTraffic

/-! ## Three calls -/

/-- Latencies in whole microseconds. -/
def microLatencies : LatencyArithmetic Nat := ⟨id, fun total count => total / count, fun all => all.sum / all.length, 0⟩

def sampleRecord (id : String) : TimedRecord Nat where
  id := id
  hlc := "1789266803844-000000"
  clientIp := "10.0.0.7"
  method := "POST"
  path := "/graphql"
  appId := "orders"
  operationName := some "AddItem"
  operationType := "mutation"
  mode := "Sync"
  statusCode := 502
  receiptStatus := none
  target := "10.0.0.9:4000"
  queryPreview := none
  variablesPreview := none
  auditTag := none
  auditRule := none
  responsePreview := none
  errorPreview := none
  latencyMs := 1200

/-- Two records, and a reader that comes while the first is written. -/
def threeCalls : RecorderTraffic Nat (Fin 3) where
  latencies := microLatencies
  maxEntries := 1
  tasks
    | 0 => .record (sampleRecord "a")
    | 1 => .record (sampleRecord "b")
    | 2 => .respond 0 none

def threeCallsScheduler : Scheduler threeCalls.locker.system Unit :=
  threeCalls.locker.scheduler CounterCall.reply fun _ => CounterCall.meaning_reply

/-- The first record takes the lock, and the second comes and goes meanwhile. -/
def meanwhileMoves {ι : Type} (first second : ι) : List (Move ι Empty Unit) :=
  List.replicate 7 (.thread first ()) ++ List.replicate 8 (.thread second ())

/-- Then the first is through, and the reader comes. -/
def quietMoves {ι : Type} (first second reader : ι) : List (Move ι Empty Unit) :=
  meanwhileMoves first second ++ List.replicate 4 (.thread first ()) ++ List.replicate 11 (.thread reader ())

open RecorderTraffic in
/-- The buffer holds the newest records that found its lock free since it was last cleared, as many as
    it may, each pushed once by the call that was asked for it; a writer has one more in hand. -/
theorem traffic_buffer_newest {ι : Type} [DecidableEq ι] {traffic : RecorderTraffic L ι} {config : Configuration L ι}
    (reaches : traffic.locker.system.Reaches fresh config) :
    let lock := config.moment.shared.1
    (lock.writer = none → lock.value = traffic.newest config.moment.history) ∧
      lock.value.length ≤ traffic.cap + 1 ∧ ((pushers config.moment.history).map Prod.fst).Nodup ∧
      ∀ thread entry, (thread, entry) ∈ pushers config.moment.history → traffic.tasks thread = .record entry := by
  intro lock
  have sound := sound reaches
  refine ⟨fun noWriter => buffer_of_ok reaches (sound.rest noWriter), ?_, (pushers_sound reaches).1,
    fun thread entry member => ((pushers_sound reaches).2 thread entry member).1⟩
  cases writer : lock.writer with
  | none => exact Nat.le_succ_of_le (sound.rest writer)
  | some thread =>
    obtain ⟨phase, writing⟩ := (sound.writer thread).mpr writer
    rcases sound.busy thread phase writing with few | ⟨_, few⟩
    · exact Nat.le_succ_of_le few
    · exact few

theorem traffic_buffer_newest_meanwhile :
    ∃ config, threeCalls.locker.system.Reaches RecorderTraffic.fresh config ∧
      config.moment.shared.1.writer = some 0 ∧ config.moment.shared.1.value.length ≤ threeCalls.cap + 1 := by
  obtain ⟨config, reaches, writing⟩ : ∃ config, threeCalls.locker.system.Reaches RecorderTraffic.fresh config ∧
      config.moment.shared.1.writer = some 0 :=
    ⟨_, threeCallsScheduler.run_reaches (meanwhileMoves 0 1) .initial rfl, rfl⟩
  exact ⟨config, reaches, writing, (traffic_buffer_newest reaches).2.1⟩

open RecorderTraffic in
/-- What a reader is shown are the newest records at one moment of its call, with none that a writer
    has not dropped yet. -/
theorem traffic_shown {ι : Type} [DecidableEq ι] {traffic : RecorderTraffic L ι} {config : Configuration L ι}
    (reaches : traffic.locker.system.Reaches fresh config) {thread : ι} {limit : Nat} {appFilter : Option String}
    (isReader : traffic.tasks thread = .respond limit appFilter) {result : Option (TrafficResponse L)}
    (finished : config.threads thread = .finished result) :
    ∃ response past answer future, result = some response ∧
      config.moment.history = past ++ .perform thread ⟨.lock .get, answer⟩ :: future ∧
      response.records = TrafficRecorder.shown limit appFilter (traffic.newest past) := by
  obtain ⟨_, _, read⟩ := reaches.obeyed (traffic.follows.obeys thread) traffic.follows.answers finished
  obtain ⟨buffer, response, got, rfl, records⟩ := read limit appFilter isReader
  obtain ⟨past, future, split⟩ := got_mem got
  obtain ⟨before, after, reached, rfl, step⟩ := reaches.step_at split
  refine ⟨response, _, buffer, future, rfl, split, ?_⟩
  have same : buffer = before.moment.shared.1.value := by
    cases step with
    | perform _ effect =>
      obtain ⟨_, ⟨same, _⟩, _⟩ := effect
      exact same
  have few : before.moment.shared.1.value.length ≤ traffic.cap := by
    cases step with
    | perform running _ => exact Locker.reading (orderly traffic) (Nat.zero_le _) reached running
  rw [records, same, buffer_of_ok reached few]

theorem traffic_shown_quiet :
    ∃ config response past answer future, threeCalls.locker.system.Reaches RecorderTraffic.fresh config ∧
      config.threads 2 = .finished (some response) ∧
      config.moment.history = past ++ .perform 2 ⟨.lock .get, answer⟩ :: future ∧
      response.records = TrafficRecorder.shown 0 none (threeCalls.newest past) := by
  obtain ⟨config, reaches, result, finished⟩ : ∃ config,
      threeCalls.locker.system.Reaches RecorderTraffic.fresh config ∧ ∃ result, config.threads 2 = .finished result :=
    ⟨_, threeCallsScheduler.run_reaches (quietMoves 0 1 2) .initial rfl, _, rfl⟩
  obtain ⟨response, past, answer, future, rfl, split, records⟩ := traffic_shown reaches rfl finished
  exact ⟨config, response, past, answer, future, reaches, finished, split, records⟩

open RecorderTraffic in
/-- A record that is over has been pushed, or somebody else was at the buffer when it was to be. -/
theorem traffic_record_kept {ι : Type} [DecidableEq ι] {traffic : RecorderTraffic L ι} {config : Configuration L ι}
    (reaches : traffic.locker.system.Reaches fresh config) {thread : ι} {entry : TimedRecord L}
    (isRecord : traffic.tasks thread = .record entry) {result : Option (TrafficResponse L)}
    (finished : config.threads thread = .finished result) :
    (∃ past answer future,
      config.moment.history = past ++ .perform thread ⟨.lock (.change (.pushFront entry)), answer⟩ :: future) ∨
    ∃ past future other, config.moment.history = past ++ .perform thread ⟨.lock .tryWrite, false⟩ :: future ∧
      other ≠ thread ∧
      (RwSlot.automaton traffic.locker.resource).phases (fun _ => .outside) past other ≠ .outside := by
  obtain ⟨_, done, _⟩ := reaches.obeyed (traffic.follows.obeys thread) traffic.follows.answers finished
  rcases done entry isRecord with pushed | refused
  · obtain ⟨past, entry', answer, future, split⟩ := pushed_mem pushed
    obtain ⟨before, after, reached, rfl, step⟩ := reaches.step_at split
    cases step with
    | perform running _ =>
      have allowed := (reached.obeys (traffic.follows.obeys thread) traffic.follows.answers running).1
      have own : (traffic.track before.moment.history thread).task = traffic.tasks thread := task_track _ _
      cases isRecord.symm.trans (own.symm.trans allowed.1)
      exact .inl ⟨_, answer, future, split⟩
  · obtain ⟨past, future, split⟩ := refused_mem refused
    obtain ⟨before, after, reached, rfl, step⟩ := reaches.step_at split
    cases step with
    | perform running effect =>
      obtain ⟨_, ⟨taken, _⟩ | ⟨_, held, _⟩, _⟩ := effect
      · cases taken
      · obtain ⟨other, different, inside⟩ := Locker.refused (orderly traffic) (Nat.zero_le _) reached running held
        exact .inr ⟨_, future, other, split, different, inside⟩

theorem traffic_record_kept_meanwhile :
    ∃ config, threeCalls.locker.system.Reaches RecorderTraffic.fresh config ∧ config.threads 1 = .finished none ∧
      ((∃ past answer future, config.moment.history =
          past ++ .perform 1 ⟨.lock (.change (.pushFront (sampleRecord "b"))), answer⟩ :: future) ∨
        ∃ past future other, config.moment.history = past ++ .perform 1 ⟨.lock .tryWrite, false⟩ :: future ∧
          other ≠ 1 ∧
          (RwSlot.automaton threeCalls.locker.resource).phases (fun _ => .outside) past other ≠ .outside) := by
  obtain ⟨config, reaches, finished⟩ : ∃ config, threeCalls.locker.system.Reaches RecorderTraffic.fresh config ∧
      config.threads 1 = .finished none :=
    ⟨_, threeCallsScheduler.run_reaches (meanwhileMoves 0 1) .initial rfl, rfl⟩
  exact ⟨config, reaches, finished, traffic_record_kept reaches rfl finished⟩

namespace TrafficRecorder

theorem only_record (latencies : LatencyArithmetic L) (entry : TimedRecord L) :
    (record latencies entry).Only fun call => Locker.waits call = false := by
  have mode : (countMode entry.toTrafficRecord : RecorderProg L Unit).Only fun call => Locker.waits call = false := by
    unfold countMode
    split
    · exact .perform rfl
    · split
      · exact .perform rfl
      · trivial
  have error : (countError entry.toTrafficRecord : RecorderProg L Unit).Only fun call => Locker.waits call = false := by
    unfold countError
    split
    · exact .perform rfl
    · trivial
  have push : (pushRecord entry).Only fun call => Locker.waits call = false := by
    refine ⟨rfl, fun taken _ => ?_⟩
    cases taken with
    | false => trivial
    | true =>
      exact ⟨rfl, fun _ _ => ⟨rfl, fun _ _ => ⟨rfl, fun _ _ =>
        trivial⟩⟩⟩
  exact ⟨rfl, fun _ _ => mode.bind fun _ => error.bind fun _ => ⟨rfl, fun _ _ => ⟨rfl, fun _ _ => push⟩⟩⟩

end TrafficRecorder

open RecorderTraffic in
/-- To leave a record never means to wait: whatever all other calls have come to, and whoever holds the
    lock, a record goes through by its own steps. -/
theorem traffic_record_never_waits {ι : Type} [DecidableEq ι] {traffic : RecorderTraffic L ι}
    {config : Configuration L ι} (reaches : traffic.locker.system.Reaches fresh config) {thread : ι}
    {entry : TimedRecord L} (isRecord : traffic.tasks thread = .record entry)
    {program : RecorderProg L (Option (TrafficResponse L))} (running : config.threads thread = .running program) :
    ∃ later result, traffic.locker.system.Leads config later ∧
      later.threads = Function.update config.threads thread (.finished result) := by
  refine Locker.leads_of_not_waits (fun _ => CounterCall.meaning_reply) reaches ?_ running
  change ((traffic.tasks thread).program traffic.latencies).Only _
  rw [isRecord]
  exact (TrafficRecorder.only_record traffic.latencies entry).bind fun _ => trivial

theorem traffic_record_never_waits_meanwhile :
    ∃ config later result, threeCalls.locker.system.Reaches RecorderTraffic.fresh config ∧
      config.moment.shared.1.writer = some 0 ∧ threeCalls.locker.system.Leads config later ∧
      later.threads = Function.update config.threads 1 (.finished result) := by
  obtain ⟨config, reaches, writing, program, running⟩ : ∃ config,
      threeCalls.locker.system.Reaches RecorderTraffic.fresh config ∧ config.moment.shared.1.writer = some 0 ∧
      ∃ program, config.threads 1 = .running program :=
    ⟨_, threeCallsScheduler.run_reaches (List.replicate 7 (.thread 0 ()) ++ [.thread 1 ()]) .initial rfl, rfl, _, rfl⟩
  obtain ⟨later, result, leads, threads⟩ := traffic_record_never_waits reaches rfl running
  exact ⟨config, later, result, reaches, writing, leads, threads⟩

/-! ## The counters -/

/-- What a call is worth to a counter. -/
def RecorderTask.weight (latencies : LatencyArithmetic L) (counter : TrafficCounter) : RecorderTask L → Nat
  | .respond _ _ | .clear => 0
  | .record entry =>
    match counter with
    | .totalRequests | .recordedCount => 1
    | .modeBRequests => if TrafficRecorder.isModeB entry.mode then 1 else 0
    | .modeARequests => if !TrafficRecorder.isModeB entry.mode && TrafficRecorder.isModeA entry.mode then 1 else 0
    | .errorRequests => if TrafficRecorder.isError entry.toTrafficRecord then 1 else 0
    | .totalLatencyUs => latencies.micros entry.latencyMs

/-- What a step adds to a counter. -/
def added (counter : TrafficCounter) : RwCall (BufferChange L) counterSignature → Nat
  | .other (.fetchAdd target amount) => if target = counter then amount else 0
  | _ => 0

/-- What some additions come to for a counter. -/
def tally (counter : TrafficCounter) (adds : List (TrafficCounter × Nat)) : Nat :=
  (adds.map fun add => if add.1 = counter then add.2 else 0).sum

theorem tally_concat (counter : TrafficCounter) (adds : List (TrafficCounter × Nat)) (add : TrafficCounter × Nat) :
    tally counter (adds ++ [add]) = tally counter adds + if add.1 = counter then add.2 else 0 := by
  simp [tally]

theorem tally_adds (latencies : LatencyArithmetic L) (counter : TrafficCounter) (task : RecorderTask L) :
    tally counter (task.adds latencies) = task.weight latencies counter := by
  cases task with
  | respond _ _ | clear => rfl
  | record entry =>
    cases modeB : TrafficRecorder.isModeB entry.mode <;> cases modeA : TrafficRecorder.isModeA entry.mode <;>
      cases error : TrafficRecorder.isError entry.toTrafficRecord <;> cases counter <;>
      simp [RecorderTask.adds, RecorderTask.weight, modeAdds, errorAdds, tally, modeB, modeA, error]

theorem tally_next (track : RecorderTrack L) (counter : TrafficCounter)
    (event : Event (rwSignature (BufferChange L) (Buffer L) counterSignature)) :
    tally counter (track.next event).adds = tally counter track.adds + added counter event.call := by
  obtain ⟨call, answer⟩ := event
  cases call with
  | lock op =>
    cases op with
    | tryWrite => cases answer <;> rfl
    | change change => cases change <;> rfl
    | write | read | get | release => rfl
  | other call =>
    cases call with
    | fetchAdd target amount => exact tally_concat counter track.adds (target, amount)
    | load _ | store _ _ => rfl

namespace RecorderTraffic

variable {ι : Type} [DecidableEq ι] {traffic : RecorderTraffic L ι} {config : Configuration L ι}

/-- A counter that some call sets back. -/
def Resets (traffic : RecorderTraffic L ι) (counter : TrafficCounter) : Prop :=
  (counter = .totalLatencyUs ∨ counter = .recordedCount) ∧ ∃ thread, traffic.tasks thread = .clear

variable [Fintype ι]

/-- What all calls together have added to a counter. -/
def sumAdds (tracks : ι → RecorderTrack L) (counter : TrafficCounter) : Nat :=
  ∑ thread, tally counter (tracks thread).adds

theorem sumAdds_update (tracks : ι → RecorderTrack L) (thread : ι) (track : RecorderTrack L)
    (counter : TrafficCounter) {more : Nat}
    (adds : tally counter track.adds = tally counter (tracks thread).adds + more) :
    sumAdds (Function.update tracks thread track) counter = sumAdds tracks counter + more := by
  have rest := fun tracks : ι → RecorderTrack L =>
    (Finset.add_sum_erase Finset.univ (fun thread => tally counter (tracks thread).adds) (Finset.mem_univ thread)).symm
  have same : ∀ other ∈ Finset.univ.erase thread,
      tally counter (Function.update tracks thread track other).adds = tally counter (tracks other).adds := by
    intro other member
    rw [Function.update_of_ne (Finset.ne_of_mem_erase member)]
  unfold sumAdds
  rw [rest, rest tracks, Finset.sum_congr rfl same, Function.update_self, adds]
  omega

theorem countInvariant (traffic : RecorderTraffic L ι) : PhaseInvariant traffic.locker.system RecorderTrack.automaton
    (fun _ => True) fun shared tracks => (∀ thread, (tracks thread).task = traffic.tasks thread) ∧
      ∀ counter, ¬traffic.Resets counter → shared.2 counter = sumAdds tracks counter % 2 ^ 64 where
  perform := by
    rintro thread call before answer after tracks _ ⟨tasks, counts⟩ allowed effect
    refine ⟨fun other => ?_, fun counter kept => ?_⟩
    · by_cases same : other = thread
      · subst same
        rw [Function.update_self]
        exact (RecorderTrack.task_next _ _).trans (tasks other)
      · rw [Function.update_of_ne same]
        exact tasks other
    · have sums : sumAdds (Function.update tracks thread (RecorderTrack.automaton.next (tracks thread) ⟨call, answer⟩))
          counter = sumAdds tracks counter + added counter call :=
        sumAdds_update tracks thread _ counter (tally_next (tracks thread) counter ⟨call, answer⟩)
      rw [sums, Nat.add_mod, ← counts counter kept]
      have small : before.2 counter < 2 ^ 64 := by
        rw [counts counter kept]
        exact Nat.mod_lt _ (by decide)
      have still : before.2 counter = (before.2 counter + 0 % 2 ^ 64) % 2 ^ 64 := (Nat.mod_eq_of_lt small).symm
      cases call with
      | lock op =>
        obtain ⟨lock, _, rfl⟩ := effect
        exact still
      | other call =>
        obtain ⟨state, effect, rfl⟩ := effect
        cases call with
        | load _ =>
          obtain ⟨_, rfl⟩ := effect
          exact still
        | store target value =>
          -- only a clear stores, and not to this counter
          obtain ⟨isClear, isReset⟩ := allowed
          have different : counter ≠ target := by
            rintro rfl
            exact kept ⟨isReset, thread, (tasks thread).symm.trans isClear⟩
          cases effect
          exact (Function.update_of_ne different value before.2).trans still
        | fetchAdd target amount =>
          cases effect
          by_cases same : target = counter
          · subst same
            simp [added]
          · simpa [added, same, Ne.symm same] using still
  environment := fun _ _ effect => effect.1.elim

end RecorderTraffic

open RecorderTraffic in
/-- Once no call is running, each counter has come to what the calls that are over are worth to it, up
    to the wrap at 64 bits; the two that a clear sets back, if there was none. -/
theorem traffic_counted {ι : Type} [DecidableEq ι] [Fintype ι] {traffic : RecorderTraffic L ι}
    {config : Configuration L ι} (reaches : traffic.locker.system.Reaches fresh config)
    (rest : ∀ thread program, config.threads thread ≠ .running program) {counter : TrafficCounter}
    (kept : ¬traffic.Resets counter) :
    config.moment.shared.2 counter =
      (∑ thread, if (config.threads thread).isFinished then (traffic.tasks thread).weight traffic.latencies counter
        else 0) % 2 ^ 64 := by
  have counts := reaches.phaseInvariant traffic.follows traffic.countInvariant (fun _ => trivial)
    ⟨fun _ => rfl, fun _ _ => by simp [fresh, Locker.initial, sumAdds, RecorderTrack.start, tally]⟩
  rw [counts.2 counter kept]
  refine congrArg (· % 2 ^ 64) (Finset.sum_congr rfl fun thread _ => ?_)
  cases state : config.threads thread with
  | running program => exact absurd state (rest thread program)
  | idle =>
    have untouched : RecorderTrack.automaton.phases (fun thread => .start (traffic.tasks thread))
        config.moment.history thread = .start (traffic.tasks thread) :=
      Automaton.phaseOf_fresh _ _ (reaches.fresh_of_idle state)
    rw [untouched]
    rfl
  | finished result =>
    have adds := (reaches.obeyed (traffic.follows.obeys thread) traffic.follows.answers state).1
    exact (congrArg (tally counter) adds).trans (tally_adds traffic.latencies counter (traffic.tasks thread))

theorem traffic_counted_quiet :
    ∃ config, threeCalls.locker.system.Reaches RecorderTraffic.fresh config ∧
      config.moment.shared.2 .totalRequests =
        (∑ thread, if (config.threads thread).isFinished then
          (threeCalls.tasks thread).weight threeCalls.latencies .totalRequests else 0) % 2 ^ 64 := by
  obtain ⟨config, reaches, ⟨_, first⟩, ⟨_, second⟩, ⟨_, third⟩⟩ : ∃ config,
      threeCalls.locker.system.Reaches RecorderTraffic.fresh config ∧ (∃ result, config.threads 0 = .finished result) ∧
      (∃ result, config.threads 1 = .finished result) ∧ ∃ result, config.threads 2 = .finished result :=
    ⟨_, threeCallsScheduler.run_reaches (quietMoves 0 1 2) .initial rfl, ⟨_, rfl⟩, ⟨_, rfl⟩, ⟨_, rfl⟩⟩
  have rest : ∀ thread program, config.threads thread ≠ .running program := by
    intro thread program running
    match thread with
    | 0 => cases first.symm.trans running
    | 1 => cases second.symm.trans running
    | 2 => cases third.symm.trans running
  exact ⟨config, reaches, traffic_counted reaches rest (by simp [RecorderTraffic.Resets])⟩

end SpectraGQL.Admin
