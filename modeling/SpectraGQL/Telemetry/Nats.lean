import SpectraGQL.Interaction.SingleFlight
import SpectraGQL.Telemetry.Sinks

/-! # The connection to NATS (`telemetry/nats.rs`)

All writes of a gateway share one JetStream context.  Whoever finds none connects under a lock, and
who fails to publish throws away whatever context is there, without the lock.  A write may be
dropped wherever it waits.

`nats_single_flight` says what the contexts of any number of gateways go through, `nats_write_told`
what a write tells its caller.
-/

namespace SpectraGQL.Telemetry

open Interaction SpectraGQL.Http SpectraGQL.Protocol

structure NatsDispatch where
  addr : String
  initialReconnectMs : Nat
  maxReconnectMs : Nat

namespace NatsDispatch

/-- `new`: who watches a terminal waits longer between two attempts. -/
def new (addr : String) (isTty : Bool) : NatsDispatch :=
  if isTty then ⟨addr, 250, 5000⟩ else ⟨addr, 10, 2000⟩

/-- `reconnect_delay_callback`, in milliseconds; the product saturates at 64 bits. -/
def reconnectDelay (dispatch : NatsDispatch) (attempts : Nat) : Nat :=
  min (min (dispatch.initialReconnectMs * 2 ^ min attempts 6) (2 ^ 64 - 1)) dispatch.maxReconnectMs

/-- The delay grows with the attempts, and no further than the maximum. -/
theorem reconnectDelay_mono (dispatch : NatsDispatch) {attempts later : Nat} (le : attempts ≤ later) :
    dispatch.reconnectDelay attempts ≤ dispatch.reconnectDelay later ∧
      dispatch.reconnectDelay later ≤ dispatch.maxReconnectMs := by
  have factor : 2 ^ min attempts 6 ≤ 2 ^ min later 6 := Nat.pow_le_pow_right (by omega) (by omega)
  have product := Nat.mul_le_mul_left dispatch.initialReconnectMs factor
  unfold reconnectDelay
  omega

end NatsDispatch

/-! ## Streams -/

inductive StorageType where
  | file | memory
  deriving DecidableEq, Repr

/-- `jetstream::stream::Config`, as far as the gateway sets it; `rest` is what else a broker keeps. -/
structure StreamConfig where
  name : String
  description : Option String := none
  subjects : List String
  maxMessageSize : Nat := 0
  storage : StorageType := .file
  rest : List (String × String) := []
  deriving DecidableEq, Repr

/-- What is asked of the broker, through the context with the given number. -/
inductive NatsCall where
  | getStream (js : Nat) (name : String)
  | getInfo (js : Nat) (name : String)
  | updateStream (js : Nat) (config : StreamConfig)
  | getOrCreateStream (js : Nat) (config : StreamConfig)
  | publish (js : Nat) (subject data : String)
  | ack (js : Nat)
  deriving DecidableEq, Repr

/-- No answer comes to a write that is dropped while it waits; an error is its text. -/
def NatsCall.Answer : NatsCall → Type
  | .getInfo _ _ => Option (Except String StreamConfig)
  | _ => Option (Except String Unit)

abbrev natsSignature : Signature := ⟨NatsCall, NatsCall.Answer⟩

inductive ErrorType where
  | connectError
  | writeError
  | custom (name : String)
  deriving DecidableEq, Repr

structure WriteFailure where
  errorType : ErrorType
  context : String
  deriving DecidableEq, Repr

/-- `none` if the write is dropped. -/
abbrev WriteResult := Option (Except WriteFailure Unit)

abbrev NatsProg (α : Type) := Prog natsSignature α

def ask (call : NatsCall) : NatsProg call.Answer := Prog.perform (S := natsSignature) call

namespace NatsDispatch

def targetSubjects : List String := ["mutation.>", "query.>", "subscription.>", "spectra.>", "interceptors.>"]

/-- The subjects with those that are missing, and whether some were. -/
def addMissing (subjects : List String) : List String × Bool :=
  targetSubjects.foldl (fun (updated, needsUpdate) subject =>
    if updated.contains subject then (updated, needsUpdate) else (updated ++ [subject], true)) (subjects, false)

def standardStream : StreamConfig where
  name := "mutations"
  description := some "SpectraGQL mutation and telemetry stream"
  subjects := targetSubjects
  maxMessageSize := 4 * 1024 * 1024

/-- A stream in the files of the broker, or else in its memory. -/
def createStream (js : Nat) : NatsProg (Option Unit) := do
  match ← ask (.getOrCreateStream js standardStream) with
  | none => return none
  | some (.ok ()) => return some ()
  | some (.error _) =>
    match ← ask (.getOrCreateStream js { standardStream with storage := .memory }) with
    | none => return none
    | some _ => return some ()

/-- All else that the stream is configured with stays. -/
def updateSubjects (js : Nat) (info : StreamConfig) : NatsProg (Option Unit) :=
  let (subjects, needsUpdate) := addMissing info.subjects
  if needsUpdate then do
    match ← ask (.updateStream js { info with subjects := subjects }) with
    | none => return none
    | some _ => return some ()
  else return some ()

/-- `ensure_default_streams`; what fails is logged. -/
def ensureDefaultStreams (js : Nat) : NatsProg (Option Unit) := do
  match ← ask (.getStream js "mutations") with
  | none => return none
  | some (.error _) => createStream js
  | some (.ok ()) =>
    match ← ask (.getInfo js "mutations") with
    | none => return none
    | some (.error _) => createStream js
    | some (.ok info) => updateSubjects js info

/-! ## Writes -/

/-- `get_jetstream`. -/
def getJetstream : CellProg natsSignature (Option (Except String Nat)) := getOrConnect ensureDefaultStreams

/-- `evict_client`. -/
def evictClient : CellProg natsSignature Unit := do
  let _ ← CellProg.swap

def writeToNats (subject data : String) : CellProg natsSignature WriteResult := do
  match ← getJetstream with
  | none => return none
  | some (.error error) => return some (.error ⟨.connectError, "NATS connect error: " ++ error⟩)
  | some (.ok js) =>
    match ← CellProg.other (T := natsSignature) (.publish js subject data) with
    | none => return none
    | some (.error error) =>
      evictClient
      return some (.error ⟨.writeError, "NATS publish error: " ++ error⟩)
    | some (.ok ()) =>
      match ← CellProg.other (T := natsSignature) (.ack js) with
      | none => return none
      | some (.error error) => return some (.error ⟨.writeError, "NATS ack error: " ++ error⟩)
      | some (.ok ()) => return some (.ok ())

/-- `EventSink::publish`; `utf8Error` is how the error of `from_utf8` is printed. -/
def publishBytes (utf8Error : Bytes → String) (topic : String) (payload : Bytes) :
    CellProg natsSignature WriteResult :=
  match fromUtf8 payload with
  | none => return some (.error ⟨.custom "Utf8Error", "Invalid UTF-8 payload: " ++ utf8Error payload⟩)
  | some data => writeToNats topic data

theorem obeys_writeToNats (subject data : String) :
    (writeToNats subject data).Obeys Slot.automaton (fun _ slot => slot = .outside) .outside := by
  refine (Slot.obeys_getOrConnect _).bind fun got slot outside => ?_
  subst outside
  match got with
  | none | some (.error _) => rfl
  | some (.ok js) =>
    refine Slot.obeys_other fun published => ?_
    match published with
    | none => rfl
    | some (.error _) => exact ⟨.inr (.inr rfl), fun _ _ => rfl⟩
    | some (.ok ()) =>
      refine Slot.obeys_other fun acked => ?_
      match acked with
      | none | some (.error _) | some (.ok ()) => rfl

theorem obeys_publishBytes (utf8Error : Bytes → String) (topic : String) (payload : Bytes) :
    (publishBytes utf8Error topic payload).Obeys Slot.automaton (fun _ slot => slot = .outside) .outside := by
  unfold publishBytes
  split
  · rfl
  · exact obeys_writeToNats _ _

end NatsDispatch

/-! ## Many writes -/

/-- A write, and the gateway that makes it. -/
structure NatsWrite (κ : Type) where
  gateway : κ
  topic : String
  payload : Bytes

variable {ι κ ε σ : Type}

/-- Writes of any number of gateways; nothing is said about the broker. -/
structure NatsTraffic (ι κ ε σ : Type) where
  writes : ι → NatsWrite κ
  utf8Error : Bytes → String
  broker : ι → Semantics natsSignature σ
  environment : ε → σ → σ → Prop

/-! ## What a write does -/

/-- What a write does at the broker, and to the context that all share, with the answer it gets. -/
inductive WriteAct where
  | publish (js : Nat) (subject data : String) (answer : Option (Except String Unit))
  | ack (js : Nat) (answer : Option (Except String Unit))
  | evict (found : Option Nat)

def WriteAct.ofEvent : Event (cellSignature natsSignature) → Option WriteAct
  | ⟨.other (.publish js subject data), answer⟩ => some (.publish js subject data answer)
  | ⟨.other (.ack js), answer⟩ => some (.ack js answer)
  | ⟨.cell .swap, found⟩ => some (.evict found)
  | _ => none

def WriteAct.isPublish : WriteAct → Bool
  | publish _ _ _ _ => true
  | ack _ _ | evict _ => false

/-- The context that the write has been given, and what it has done since. -/
structure WriteTrack where
  seen : Option Nat
  acts : List WriteAct

namespace WriteTrack

def start : WriteTrack := ⟨none, []⟩

def given : Event (cellSignature natsSignature) → Option Nat
  | ⟨.cell .load, found⟩ => found
  | ⟨.cell .connect, some (.ok connection)⟩ => some connection
  | _ => none

/-- A write publishes once, through the context that it has been given. -/
def allowed (track : WriteTrack) : CellCall natsSignature → Prop
  | .other (.publish js _ _) => track = ⟨some js, []⟩
  | _ => True

def next (track : WriteTrack) (event : Event (cellSignature natsSignature)) : WriteTrack :=
  ⟨given event <|> track.seen, track.acts ++ (WriteAct.ofEvent event).toList⟩

def automaton : Automaton (cellSignature natsSignature) WriteTrack := ⟨allowed, fun _ => True, next⟩

end WriteTrack

/-- What a step of a run is of the write on a thread. -/
def WriteAct.ofLabel {ι ε : Type} [DecidableEq ι] (thread : ι) :
    Label (cellSignature natsSignature) ι ε WriteResult → Option WriteAct
  | .perform performer event => if performer = thread then WriteAct.ofEvent event else none
  | _ => none

/-- The track holds what a write has done so far. -/
theorem WriteTrack.acts_phaseOf {ι ε : Type} [DecidableEq ι] (thread : ι)
    (history : List (Label (cellSignature natsSignature) ι ε WriteResult)) :
    (WriteTrack.automaton.phaseOf .start thread history).acts = history.filterMap (WriteAct.ofLabel thread) := by
  induction history using List.reverseRecOn with
  | nil => rfl
  | append_singleton history label inductionHypothesis =>
    have trace : [label].filterMap (WriteAct.ofLabel thread) = (WriteAct.ofLabel thread label).toList := by
      cases given : WriteAct.ofLabel thread label <;> simp [given]
    rw [Automaton.phaseOf_append, List.filterMap_append, ← inductionHypothesis, trace]
    cases label with
    | start _ | finish _ _ | environment _ => exact (List.append_nil _).symm
    | perform performer event =>
      change (if performer = thread then WriteTrack.next _ event else _).acts =
        _ ++ (if performer = thread then WriteAct.ofEvent event else none).toList
      by_cases same : performer = thread
      · rw [if_pos same, if_pos same]
        rfl
      · rw [if_neg same, if_neg same]
        exact (List.append_nil _).symm

/-- What a write has done tells how it went: `result` is a success if its one message was published
    and acknowledged, and the context is thrown away if the message was refused. -/
structure TellsWrite (topic : String) (payload : Bytes) (acts : List WriteAct) (result : WriteResult) : Prop where
  once : acts.countP WriteAct.isPublish ≤ 1
  own : ∀ js subject data answer, .publish js subject data answer ∈ acts → subject = topic ∧ asBytes data = payload
  success : result = some (.ok ()) ↔ ∃ js data,
    acts = [.publish js topic data (some (.ok ())), .ack js (some (.ok ()))]
  evicts : (∃ found, .evict found ∈ acts) ↔ ∃ js data error, .publish js topic data (some (.error error)) ∈ acts

namespace TellsWrite

variable {topic data : String} {payload : Bytes} {result : WriteResult}

theorem unsent (failed : result ≠ some (.ok ())) : TellsWrite topic payload [] result where
  once := Nat.zero_le 1
  own := by simp
  success := by simp [failed]
  evicts := by simp

theorem published {js : Nat} {answer : Option (Except String Unit)} {rest : List WriteAct}
    (quiet : rest.countP WriteAct.isPublish = 0)
    (success : result = some (.ok ()) ↔ answer = some (.ok ()) ∧ rest = [.ack js (some (.ok ()))])
    (evicts : (∃ found, .evict found ∈ rest) ↔ ∃ error, answer = some (.error error)) :
    TellsWrite topic (asBytes data) (.publish js topic data answer :: rest) result := by
  have noPublish : ∀ js subject data answer, .publish js subject data answer ∉ rest := fun js subject data answer =>
    fun member => List.countP_eq_zero.mp quiet _ member rfl
  exact {
    once := by rw [List.countP_cons_of_pos rfl, quiet]
    own := by
      intro js subject data answer member
      rcases List.mem_cons.mp member with same | later
      · cases same
        exact ⟨rfl, rfl⟩
      · exact absurd later (noPublish js subject data answer)
    success := by
      rw [success]
      constructor
      · rintro ⟨rfl, rfl⟩
        exact ⟨js, data, rfl⟩
      · rintro ⟨js, data, same⟩
        cases same
        exact ⟨rfl, rfl⟩
    evicts := by simp [evicts, noPublish, eq_comm] }

theorem dropped (js : Nat) : TellsWrite topic (asBytes data) [.publish js topic data none] none :=
  published rfl (by simp) (by simp)

theorem refused (js : Nat) (error : String) (found : Option Nat) (failure : WriteFailure) :
    TellsWrite topic (asBytes data) [.publish js topic data (some (.error error)), .evict found]
      (some (.error failure)) :=
  published rfl (by simp) (by simp)

theorem acked (js : Nat) {answer : Option (Except String Unit)}
    (success : result = some (.ok ()) ↔ answer = some (.ok ())) :
    TellsWrite topic (asBytes data) [.publish js topic data (some (.ok ())), .ack js answer] result :=
  published rfl (by simp [success]) (by simp)

end TellsWrite

/-- Whether a call sets up the stream. -/
def NatsCall.provisions : NatsCall → Bool
  | getStream _ _ | getInfo _ _ | updateStream _ _ | getOrCreateStream _ _ => true
  | publish _ _ _ | ack _ => false

namespace NatsDispatch

theorem only_createStream (js : Nat) : (createStream js).Only fun call : NatsCall => call.provisions = true := by
  refine ⟨rfl, fun answer _ => ?_⟩
  match answer with
  | none | some (.ok ()) => trivial
  | some (.error _) =>
    refine ⟨rfl, fun answer _ => ?_⟩
    cases answer <;> trivial

theorem only_updateSubjects (js : Nat) (info : StreamConfig) :
    (updateSubjects js info).Only fun call : NatsCall => call.provisions = true := by
  unfold updateSubjects
  dsimp only
  split
  · refine ⟨rfl, fun answer _ => ?_⟩
    cases answer <;> trivial
  · trivial

theorem only_ensureDefaultStreams (js : Nat) :
    (ensureDefaultStreams js).Only fun call : NatsCall => call.provisions = true := by
  refine ⟨rfl, fun found _ => ?_⟩
  match found with
  | none => trivial
  | some (.error _) => exact only_createStream js
  | some (.ok ()) =>
    refine ⟨rfl, fun info _ => ?_⟩
    match info with
    | none => trivial
    | some (.error _) => exact only_createStream js
    | some (.ok info) => exact only_updateSubjects js info

theorem track_provisions {call : NatsCall} (provisions : call.provisions = true) (track : WriteTrack) :
    WriteTrack.allowed track (.other call) ∧ ∀ answer, track.next ⟨.other call, answer⟩ = track := by
  cases call with
  | getStream _ _ | getInfo _ _ | updateStream _ _ | getOrCreateStream _ _ =>
    exact ⟨trivial, fun answer => congrArg (WriteTrack.mk track.seen) (List.append_nil track.acts)⟩
  | publish _ _ _ | ack _ => cases provisions

/-- Setting up the stream leaves no trace. -/
theorem track_lift {program : NatsProg (Option Unit)}
    (only : program.Only fun call : NatsCall => call.provisions = true) (track : WriteTrack) :
    (CellProg.lift program).Obeys WriteTrack.automaton (fun _ after => after = track) track := by
  have stays : ∀ call : CellCall natsSignature, (∃ call', call = CellCall.other call' ∧ call'.provisions = true) →
      WriteTrack.automaton.allowed track call ∧ ∀ answer, WriteTrack.automaton.next track ⟨call, answer⟩ = track := by
    rintro _ ⟨call, rfl, provisions⟩
    exact track_provisions provisions track
  exact ((CellProg.only_lift only).obeys (Prog.returns_true _) stays).mono fun _ _ same => same.2

/-- Getting a context leaves no trace but the context. -/
theorem track_getJetstream :
    getJetstream.Obeys WriteTrack.automaton
      (fun got track => track.acts = [] ∧ ∀ js, got = some (.ok js) → track = ⟨some js, []⟩) .start := by
  refine ⟨trivial, fun found _ => ?_⟩
  cases found with
  | some connection => exact ⟨rfl, by rintro js ⟨⟩; rfl⟩
  | none =>
    refine ⟨trivial, fun taken _ => ?_⟩
    cases taken with
    | false => exact ⟨rfl, by rintro js ⟨⟩⟩
    | true =>
      refine ⟨trivial, fun found _ => ?_⟩
      cases found with
      | some connection => exact ⟨trivial, fun _ _ => ⟨rfl, by rintro js ⟨⟩; rfl⟩⟩
      | none =>
        refine ⟨trivial, fun connected _ => ?_⟩
        match connected with
        | none | some (.error _) => exact ⟨trivial, fun _ _ => ⟨rfl, by rintro js ⟨⟩⟩⟩
        | some (.ok connection) =>
          have stays := track_lift (only_ensureDefaultStreams connection) ⟨some connection, []⟩
          refine stays.bind ?_
          rintro prepared _ rfl
          cases prepared with
          | none => exact ⟨trivial, fun _ _ => ⟨rfl, by rintro js ⟨⟩⟩⟩
          | some _ => exact ⟨trivial, fun _ _ => ⟨trivial, fun _ _ => ⟨rfl, by rintro js ⟨⟩; rfl⟩⟩⟩

/-- Every way in which a write may end. -/
theorem track_writeToNats (subject data : String) :
    (writeToNats subject data).Obeys WriteTrack.automaton
      (fun result track => TellsWrite subject (asBytes data) track.acts result) .start := by
  refine track_getJetstream.bind fun got track ⟨fresh, given⟩ => ?_
  match got with
  | none | some (.error _) =>
    change TellsWrite subject (asBytes data) track.acts _
    rw [fresh]
    exact .unsent (by simp)
  | some (.ok js) =>
    obtain rfl := given js rfl
    refine ⟨rfl, fun published _ => ?_⟩
    match published with
    | none => exact .dropped js
    | some (.error error) => exact ⟨trivial, fun found _ => .refused js error found _⟩
    | some (.ok ()) =>
      refine ⟨trivial, fun acked _ => ?_⟩
      match acked with
      | none | some (.error _) | some (.ok ()) => exact .acked js (by simp)

theorem track_publishBytes (utf8Error : Bytes → String) (topic : String) (payload : Bytes) :
    (publishBytes utf8Error topic payload).Obeys WriteTrack.automaton
      (fun result track => TellsWrite topic payload track.acts result) .start := by
  unfold publishBytes
  cases read : fromUtf8 payload with
  | none => exact .unsent (by simp)
  | some data =>
    have tells := track_writeToNats topic data
    rwa [asBytes_of_fromUtf8 read] at tells

end NatsDispatch

namespace NatsTraffic

def flight (traffic : NatsTraffic ι κ ε σ) : Flight natsSignature ι κ ε σ WriteResult where
  place := fun thread => (traffic.writes thread).gateway
  program := fun thread =>
    NatsDispatch.publishBytes traffic.utf8Error (traffic.writes thread).topic (traffic.writes thread).payload
  outer := traffic.broker
  environment := traffic.environment

theorem orderly (traffic : NatsTraffic ι κ ε σ) : traffic.flight.Orderly :=
  fun _ => NatsDispatch.obeys_publishBytes _ _ _

theorem follows [DecidableEq κ] (traffic : NatsTraffic ι κ ε σ) :
    traffic.flight.system.Follows WriteTrack.automaton (fun thread result track =>
      TellsWrite (traffic.writes thread).topic (traffic.writes thread).payload track.acts result) (fun _ => .start) where
  obeys := fun _ => NatsDispatch.track_publishBytes _ _ _
  answers := fun _ => trivial

end NatsTraffic

/-! ## The contexts that a write meets -/

/-- A write publishes on a context that was made, and throws away no older one than that. -/
structure WriteTrack.Sound (made : Nat) (track : WriteTrack) : Prop where
  seen : ∀ js, track.seen = some js → js < made
  published : ∀ js subject data answer, .publish js subject data answer ∈ track.acts → js < made
  evicted : ∀ js subject data answer found, .publish js subject data answer ∈ track.acts →
    .evict (some found) ∈ track.acts → js ≤ found

namespace WriteTrack

variable {made made' : Nat} {track : WriteTrack}

theorem sound_start (made : Nat) : start.Sound made where
  seen := by simp [start]
  published := by simp [start]
  evicted := by simp [start]

theorem Sound.mono (sound : track.Sound made) (le : made ≤ made') : track.Sound made' where
  seen := fun js seen => (sound.seen js seen).trans_le le
  published := fun js subject data answer member => (sound.published js subject data answer member).trans_le le
  evicted := sound.evicted

theorem Sound.see (sound : track.Sound made) {connection : Nat} (lt : connection < made) :
    Sound made ⟨some connection, track.acts⟩ where
  seen := by
    rintro js ⟨⟩
    exact lt
  published := sound.published
  evicted := sound.evicted

theorem sound_publish {js : Nat} (lt : js < made) (subject data : String) (answer : Option (Except String Unit)) :
    Sound made ⟨some js, [.publish js subject data answer]⟩ where
  seen := by
    rintro js ⟨⟩
    exact lt
  published := by
    intro js subject data answer member
    cases List.mem_singleton.mp member
    exact lt
  evicted := by simp

theorem Sound.ack (sound : track.Sound made) (js : Nat) (answer : Option (Except String Unit)) :
    Sound made ⟨track.seen, track.acts ++ [.ack js answer]⟩ where
  seen := sound.seen
  published := fun js subject data answer member =>
    sound.published js subject data answer (by simpa using member)
  evicted := fun js subject data answer found published evicted =>
    sound.evicted js subject data answer found (by simpa using published) (by simpa using evicted)

/-- What is thrown away is the newest context, so no older than the one published on. -/
theorem Sound.evict (sound : track.Sound made) {found : Option Nat}
    (newest : ∀ connection, found = some connection → connection + 1 = made) :
    Sound made ⟨track.seen, track.acts ++ [.evict found]⟩ where
  seen := sound.seen
  published := fun js subject data answer member =>
    sound.published js subject data answer (by simpa using member)
  evicted := fun js subject data answer number published evicted => by
    have isPublished : .publish js subject data answer ∈ track.acts := by simpa using published
    rcases List.mem_append.mp evicted with earlier | last
    · exact sound.evicted js subject data answer number isPublished earlier
    · have lt := sound.published js subject data answer isPublished
      have isNewest := newest number (by simpa [eq_comm] using last)
      omega

/-- At the broker. -/
theorem Sound.other (sound : track.Sound made) {call : NatsCall} (isAllowed : track.allowed (.other call))
    (answer : call.Answer) : (track.next ⟨.other call, answer⟩).Sound made := by
  by_cases provisions : call.provisions = true
  · rw [(NatsDispatch.track_provisions provisions track).2 answer]
    exact sound
  · cases call with
    | getStream _ _ | getInfo _ _ | updateStream _ _ | getOrCreateStream _ _ => exact absurd rfl provisions
    | ack js => exact sound.ack js answer
    | publish js subject data =>
      obtain rfl : track = ⟨some js, []⟩ := isAllowed
      exact sound_publish (sound.seen js rfl) subject data answer

/-- At the cell, which holds the newest context or none. -/
theorem Sound.cell {ι : Type} {thread : ι} {before after : Cell ι} {op : CellOp} {answer : op.Answer}
    (sound : track.Sound before.made) (newest : ∀ connection, before.content = some connection →
      connection + 1 = before.made)
    (effect : before.meaning thread op answer after) : (track.next ⟨.cell op, answer⟩).Sound after.made := by
  -- what leaves no trace
  have quiet : Sound before.made ⟨track.seen, track.acts ++ []⟩ := by rwa [List.append_nil]
  cases op with
  | load =>
    obtain ⟨rfl, rfl⟩ := effect
    change Sound after.made ⟨after.content <|> track.seen, track.acts ++ []⟩
    cases content : after.content with
    | none => exact quiet
    | some connection => exact quiet.see (by have isNewest := newest connection content; omega)
  | lock =>
    rcases effect with ⟨_, _, rfl⟩ | ⟨_, rfl⟩ <;> exact quiet
  | unlock | store _ =>
    cases effect
    exact quiet
  | connect =>
    rcases effect with ⟨rfl, rfl⟩ | ⟨failed, rfl⟩
    · exact (quiet.mono (Nat.le_succ _)).see (Nat.lt_succ_self _)
    · obtain rfl | ⟨error, rfl⟩ := failed <;> exact quiet
  | swap =>
    obtain ⟨rfl, rfl⟩ := effect
    exact sound.evict newest

end WriteTrack

/-! ## A gateway with two writes -/

/-- A broker that has nothing to complain about. -/
def natsReply : (call : NatsCall) → Option StreamConfig → call.Answer × Option StreamConfig
  | .getStream _ _, stream => (some (if stream.isSome then .ok () else .error "stream not found"), stream)
  | .getInfo _ _, stream => (some (stream.elim (.error "stream not found") .ok), stream)
  | .updateStream _ _, none => (some (.error "stream not found"), none)
  | .updateStream _ config, some _ => (some (.ok ()), some config)
  | .getOrCreateStream _ config, stream => (some (.ok ()), stream <|> some config)
  | .publish _ _ _, stream => (some (.ok ()), stream)
  | .ack _, stream => (some (.ok ()), stream)

/-- Two writes of one gateway. -/
def twoWrites : NatsTraffic (Fin 2) Unit Empty (Option StreamConfig) where
  writes := fun _ => ⟨(), "mutation.orders", []⟩
  utf8Error := fun _ => "invalid utf-8 sequence"
  broker := fun _ call before answer after => (answer, after) = natsReply call before
  environment := fun _ _ _ => False

def twoWritesScheduler : Scheduler twoWrites.flight.system Bool :=
  twoWrites.flight.scheduler natsReply fun _ _ _ => rfl

namespace NatsTraffic

variable [DecidableEq ι] [DecidableEq κ] (traffic : NatsTraffic ι κ ε σ)

theorem trackInvariant : PhaseInvariant traffic.flight.system WriteTrack.automaton
    (fun shared => ∀ gateway connection, (shared.1 gateway).content = some connection →
      connection + 1 = (shared.1 gateway).made)
    (fun shared tracks => ∀ thread, (tracks thread).Sound (shared.1 (traffic.writes thread).gateway).made) where
  perform := by
    intro thread call before answer after tracks newest sound allowed effect other
    have grows := Flight.made_le effect (traffic.writes other).gateway
    by_cases same : other = thread
    · subst same
      rw [Function.update_self]
      have kept := (sound other).mono grows
      cases call with
      | other call => exact kept.other allowed answer
      | cell op =>
        obtain ⟨cell, effect, rfl⟩ := effect
        have kept := (sound other).cell (newest _) effect
        simp only [flight, Function.update_self]
        exact kept
    · rw [Function.update_of_ne same]
      exact (sound other).mono grows
  environment := by
    intro event before after tracks _ sound effect thread
    rw [effect.2]
    exact sound thread

variable {traffic} {state : σ} {config : Flight.Configuration natsSignature ι κ ε σ WriteResult}

/-- The contexts of every gateway: one write connects at a time, the newest context or none is shared,
    and each context made is shared, in the making, evicted or dropped. -/
theorem nats_single_flight (reaches : traffic.flight.system.Reaches (Flight.initial state) config) (gateway : κ) :
    let cell := config.moment.shared.1 gateway
    (∀ {first second firstNext secondNext},
      config.threads first = .running (.call (.cell .connect) firstNext) →
      config.threads second = .running (.call (.cell .connect) secondNext) →
      (traffic.writes first).gateway = gateway → (traffic.writes second).gateway = gateway →
      first = second ∧ cell.content = none) ∧
    (∀ connection, cell.content = some connection → connection + 1 = cell.made) ∧
    cell.made = cell.evicted + cell.dropped + cell.content.toList.length + cell.unsaved.toList.length ∧
    ((∀ thread program, (traffic.writes thread).gateway = gateway → config.threads thread ≠ .running program) →
      cell.holder = none ∧ cell.unsaved = none) := by
  intro cell
  have sound := Flight.sound traffic.orderly reaches gateway
  refine ⟨fun isFirst isSecond here there => ?_, fun connection content => sound.newest connection (.inl content),
    sound.balance, fun rest => ?_⟩
  · subst here
    exact Flight.connecting traffic.orderly reaches isFirst isSecond there.symm
  · obtain ⟨unlocked, saved, _⟩ : cell.holder = none ∧ cell.unsaved = none ∧ _ :=
      Flight.at_rest traffic.orderly reaches rest
    exact ⟨unlocked, saved⟩

/-- Both writes find no context, and the first takes the lock. -/
def raceMoves {ι : Type} (first second : ι) : List (Move ι Empty Bool) :=
  List.replicate 2 (.thread second true) ++ List.replicate 3 (.thread first true)

theorem nats_single_flight_race :
    ∃ config, twoWrites.flight.system.Reaches (Flight.initial none) config ∧
      (config.moment.shared.1 ()).holder = some 0 ∧
      (∀ connection, (config.moment.shared.1 ()).content = some connection →
        connection + 1 = (config.moment.shared.1 ()).made) := by
  obtain ⟨config, reaches, held⟩ : ∃ config, twoWrites.flight.system.Reaches (Flight.initial none) config ∧
      (config.moment.shared.1 ()).holder = some 0 :=
    ⟨_, twoWritesScheduler.run_reaches (raceMoves 0 1) .initial rfl, rfl⟩
  exact ⟨config, reaches, held, (nats_single_flight reaches ()).2.1⟩

end NatsTraffic

end SpectraGQL.Telemetry
