import SpectraGQL.Core.Clock
import SpectraGQL.Http
import Mathlib.Logic.Function.Basic

/-! # Idempotency records and outcomes (`idempotency/mod.rs`)

The data the idempotency engine stores and answers with, common to its two
backends, and the map that both of them implement: `IdempotencyMap` holds at most
one record per key, and a record written at time `t` is visible at time `u` while
`u - t` is below the time to live.
-/

namespace SpectraGQL.Idempotency

open SpectraGQL.Core SpectraGQL.Http

inductive IdempotencyRecord where
  | inProgress (hlc : HlcTimestamp) (startedAtSecs : Nat)
  | completed (hlc : HlcTimestamp) (statusCode : UInt16) (headers : List (String × String))
      (body : String) (completedAtSecs : Nat)
  deriving DecidableEq, Repr

inductive IdempotencyOutcome where
  /-- Lock acquired for new operation. -/
  | new
  /-- An operation with the same key is in flight. -/
  | conflict (hlc : HlcTimestamp)
  /-- The operation was completed: replay its response. -/
  | replay (hlc : HlcTimestamp) (statusCode : UInt16) (headers : List (String × String))
      (body : String)
  deriving DecidableEq, Repr

namespace IdempotencyRecord

/-- The second in which the record was written. -/
def writtenAt : IdempotencyRecord → Nat
  | .inProgress _ startedAtSecs => startedAtSecs
  | .completed _ _ _ _ completedAtSecs => completedAtSecs

/-- What a caller is told who finds the record under its key. -/
def outcome : IdempotencyRecord → IdempotencyOutcome
  | .inProgress hlc _ => .conflict hlc
  | .completed hlc statusCode headers body _ => .replay hlc statusCode headers body

theorem outcome_ne_new (record : IdempotencyRecord) : record.outcome ≠ .new := by
  cases record <;> simp [outcome]

def isInProgress : IdempotencyRecord → Bool
  | .inProgress _ _ => true
  | .completed _ _ _ _ _ => false

/-- A record is live until `ttlSecs` seconds have passed; a clock that went backwards
    leaves it live (`saturating_sub`). -/
def Live (ttlSecs nowSecs : Nat) (record : IdempotencyRecord) : Prop :=
  nowSecs - record.writtenAt < ttlSecs

instance (ttlSecs nowSecs : Nat) (record : IdempotencyRecord) :
    Decidable (record.Live ttlSecs nowSecs) :=
  inferInstanceAs (Decidable (_ < _))

end IdempotencyRecord

/-- The hop-by-hop headers that are not cached. -/
def isHopByHop (name : String) : Bool :=
  name == "connection" || name == "keep-alive" || name == "transfer-encoding"

/-- The headers of a response as a record keeps them: without hop-by-hop headers and
    without values that are not text. -/
def headerPairs (headers : HeaderMap) : List (String × String) :=
  headers.filterMap fun header =>
    let name := toLowercase header.1
    if isHopByHop name then none
    else (HeaderValue.toStr header.2).map fun text => (name, text)

/-- The operations of the engine, with their arguments. -/
inductive Operation where
  | checkOrInsert (key : String) (hlc : HlcTimestamp)
  | complete (key : String) (hlc : HlcTimestamp) (statusCode : UInt16) (headers : HeaderMap)
      (body : String)
  | remove (key : String)

def Operation.key : Operation → String
  | .checkOrInsert key _ => key
  | .complete key _ _ _ _ => key
  | .remove key => key

/-- What an operation returns: an outcome, or nothing. -/
inductive Reply where
  | outcome (outcome : IdempotencyOutcome)
  | done
  deriving DecidableEq, Repr

/-! ## The map behind the engine -/

/-- The abstract state of an engine: the last record written under each key. -/
abbrev IdempotencyMap := String → Option IdempotencyRecord

namespace IdempotencyMap

def empty : IdempotencyMap := fun _ => none

/-- The record a caller sees under `key` at time `nowSecs`. -/
def visible (map : IdempotencyMap) (ttlSecs nowSecs : Nat) (key : String) :
    Option IdempotencyRecord :=
  (map key).filter fun record => decide (record.Live ttlSecs nowSecs)

/-- One operation at time `nowSecs`. -/
def step (ttlSecs nowSecs : Nat) (operation : Operation) (map : IdempotencyMap) :
    Reply × IdempotencyMap :=
  match operation with
  | .checkOrInsert key hlc =>
    match map.visible ttlSecs nowSecs key with
    | some record => (.outcome record.outcome, map)
    | none => (.outcome .new, Function.update map key (some (.inProgress hlc nowSecs)))
  | .complete key hlc statusCode headers body =>
    (.done, Function.update map key
      (some (.completed hlc statusCode (headerPairs headers) body nowSecs)))
  | .remove key => (.done, Function.update map key none)

end IdempotencyMap

/-! ## The map without time

While no record expires, the times stored with the records do not matter.
-/

/-- A record without the second in which it was written. -/
inductive KeyState where
  | inProgress (hlc : HlcTimestamp)
  | completed (hlc : HlcTimestamp) (statusCode : UInt16) (headers : List (String × String))
      (body : String)
  deriving DecidableEq, Repr

def KeyState.outcome : KeyState → IdempotencyOutcome
  | .inProgress hlc => .conflict hlc
  | .completed hlc statusCode headers body => .replay hlc statusCode headers body

def IdempotencyRecord.keyState : IdempotencyRecord → KeyState
  | .inProgress hlc _ => .inProgress hlc
  | .completed hlc statusCode headers body _ => .completed hlc statusCode headers body

theorem IdempotencyRecord.outcome_keyState (record : IdempotencyRecord) :
    record.keyState.outcome = record.outcome := by
  cases record <;> rfl

/-- What an operation answers and leaves under its key, given what it finds there. -/
def Operation.onKey : Operation → Option KeyState → Reply × Option KeyState
  | .checkOrInsert _ _, some found => (.outcome found.outcome, some found)
  | .checkOrInsert _ hlc, none => (.outcome .new, some (.inProgress hlc))
  | .complete _ hlc statusCode headers body, _ =>
    (.done, some (.completed hlc statusCode (headerPairs headers) body))
  | .remove _, _ => (.done, none)

/-- The replies to a sequence of operations, each executed at its own time. -/
def replies {State : Type} (step : Nat → Operation → State → Reply × State) :
    State → List (Nat × Operation) → List Reply
  | _, [] => []
  | state, (nowSecs, operation) :: rest =>
    (step nowSecs operation state).1 :: replies step (step nowSecs operation state).2 rest

end SpectraGQL.Idempotency
