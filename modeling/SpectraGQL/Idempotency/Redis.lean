import SpectraGQL.Interaction.Pool
import SpectraGQL.Idempotency.Record

/-! # The Redis backend (`idempotency/mod.rs`)

The operations are programs over the single Redis commands they send.  A command may
fail; the operations then fail open, as the source does.  `RedisStore.apply` gives
the commands their meaning on a server that does not fail: keys expire by being
removed from the store, either when their time has come (`RedisStore.purge`) or by an
expiry event of the environment.
-/

namespace SpectraGQL.Idempotency

open SpectraGQL.Core SpectraGQL.Http
open Interaction

/-- `serde_json` on records: `to_string` and `from_str`. -/
structure RecordCodec where
  toString : IdempotencyRecord → Option String
  fromStr : String → Option IdempotencyRecord

/-- What is written can be read back. -/
def RecordCodec.RoundTrips (codec : RecordCodec) : Prop :=
  ∀ record, ∃ text, codec.toString record = some text ∧ codec.fromStr text = some record

structure RedisBackend where
  ttl : Nat
  keyPrefix : String
  codec : RecordCodec

namespace RedisBackend

def ttlSecs (backend : RedisBackend) : Nat := max backend.ttl 1

def redisKey (backend : RedisBackend) (key : String) : String := backend.keyPrefix ++ ":" ++ key

theorem redisKey_injective (backend : RedisBackend) : Function.Injective backend.redisKey := by
  intro first second equal
  exact String.append_right_inj _ |>.mp equal

end RedisBackend

inductive RedisCall where
  | currentUnixSecs
  | getConnection
  | setNxEx (key value : String) (ttlSecs : Nat)
  | get (key : String)
  | setEx (key value : String) (ttlSecs : Nat)
  | del (key : String)

/-- A Redis command answers, or reports an error. -/
@[reducible] def RedisCall.Answer : RedisCall → Type
  | .currentUnixSecs => Nat
  | .getConnection => Bool
  | .setNxEx _ _ _ => Except Unit Bool
  | .get _ => Except Unit (Option String)
  | .setEx _ _ _ | .del _ => Except Unit Unit

abbrev redisSignature : Signature := ⟨RedisCall, RedisCall.Answer⟩

abbrev RedisProg (α : Type) := Prog redisSignature α

namespace RedisProg

def currentUnixSecs : RedisProg Nat := Prog.perform (S := redisSignature) .currentUnixSecs
def getConnection : RedisProg Bool := Prog.perform (S := redisSignature) .getConnection
def setNxEx (key value : String) (ttlSecs : Nat) : RedisProg (Except Unit Bool) :=
  Prog.perform (S := redisSignature) (.setNxEx key value ttlSecs)
def get (key : String) : RedisProg (Except Unit (Option String)) :=
  Prog.perform (S := redisSignature) (.get key)
def setEx (key value : String) (ttlSecs : Nat) : RedisProg (Except Unit Unit) :=
  Prog.perform (S := redisSignature) (.setEx key value ttlSecs)
def del (key : String) : RedisProg (Except Unit Unit) := Prog.perform (S := redisSignature) (.del key)

end RedisProg

/-! ## The operations -/

namespace RedisBackend

open RedisProg

variable (backend : RedisBackend)

/-- The second half of `check_or_insert`: `SET NX` found the key, ask for its value. -/
def queryState (key : String) : RedisProg IdempotencyOutcome := do
  match ← get (backend.redisKey key) with
  | .ok (some rawJson) =>
    match backend.codec.fromStr rawJson with
    | some record => return record.outcome
    | none => return .new
  -- the source treats a missing value and an error alike
  | .ok none => return .new
  | .error _ => return .new

def checkOrInsert (key : String) (hlc : HlcTimestamp) : RedisProg IdempotencyOutcome := do
  let nowSecs ← currentUnixSecs
  match backend.codec.toString (.inProgress hlc nowSecs) with
  | none => return .new
  | some inProgressJson =>
    if ← getConnection then
      match ← setNxEx (backend.redisKey key) inProgressJson backend.ttlSecs with
      | .ok true => return .new
      | .ok false => backend.queryState key
      | .error _ => return .new
    else return .new

def complete (key : String) (hlc : HlcTimestamp) (statusCode : UInt16) (headers : HeaderMap)
    (body : String) : RedisProg Unit := do
  let nowSecs ← currentUnixSecs
  match backend.codec.toString (.completed hlc statusCode (headerPairs headers) body nowSecs) with
  | none => return ()
  | some json =>
    if ← getConnection then
      let _ ← setEx (backend.redisKey key) json backend.ttlSecs
      return ()
    else return ()

def remove (key : String) : RedisProg Unit := do
  if ← getConnection then
    let _ ← del (backend.redisKey key)
    return ()
  else return ()

def program : Operation → RedisProg Reply
  | .checkOrInsert key hlc => return .outcome (← backend.checkOrInsert key hlc)
  | .complete key hlc statusCode headers body => do
    backend.complete key hlc statusCode headers body
    return .done
  | .remove key => do
    backend.remove key
    return .done

end RedisBackend

/-! ## The server -/

structure RedisEntry where
  value : String
  expiresAt : Nat
  deriving DecidableEq, Repr

/-- The keys of the server that have not expired. -/
abbrev RedisStore := String → Option RedisEntry

namespace RedisStore

def empty : RedisStore := fun _ => none

/-- The answer to a command at server time `nowSecs`, and the store it leaves. -/
def apply (nowSecs : Nat) : (call : RedisCall) → RedisStore → call.Answer × RedisStore
  | .currentUnixSecs, store => (nowSecs, store)
  | .getConnection, store => (true, store)
  | .setNxEx key value ttlSecs, store =>
    match store key with
    | some _ => (.ok false, store)
    | none => (.ok true, Function.update store key (some ⟨value, nowSecs + ttlSecs⟩))
  | .get key, store => (.ok ((store key).map RedisEntry.value), store)
  | .setEx key value ttlSecs, store =>
    (.ok (), Function.update store key (some ⟨value, nowSecs + ttlSecs⟩))
  | .del key, store => (.ok (), Function.update store key none)

/-- The store at time `nowSecs`: a key is gone once its time to live has passed. -/
def purge (nowSecs : Nat) (store : RedisStore) : RedisStore :=
  fun key => (store key).filter fun entry => decide (nowSecs < entry.expiresAt)

/-- One operation running alone at time `nowSecs`. -/
def step (backend : RedisBackend) (nowSecs : Nat) (operation : Operation) (store : RedisStore) :
    Reply × RedisStore :=
  (backend.program operation).interp (S := redisSignature) (apply nowSecs) (store.purge nowSecs)

end RedisStore

end SpectraGQL.Idempotency
