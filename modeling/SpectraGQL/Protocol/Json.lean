import SpectraGQL.Idempotency.RecordJson
import Mathlib.Algebra.Group.Nat.Defs

/-! # JSON values (`serde_json::Value`)

Members of an object are kept in the order of their names, as the `BTreeMap` behind
`serde_json::Map` keeps them.  A number is kept as the text it is printed with.
`Json.toString` is the compact form that `Value::to_string` writes.
-/

namespace SpectraGQL.Protocol

open SpectraGQL.Idempotency

inductive Json where
  | null
  | bool (value : Bool)
  | number (text : String)
  | string (text : String)
  | array (items : List Json)
  | object (members : List (String × Json))

namespace Json

/-- `Map::insert`. -/
def insertMember (name : String) (value : Json) : List (String × Json) → List (String × Json)
  | [] => [(name, value)]
  | (other, kept) :: rest =>
    if name < other then (name, value) :: (other, kept) :: rest
    else if name = other then (name, value) :: rest
    else (other, kept) :: insertMember name value rest

/-- The object that `json!` builds: later members replace earlier ones of their name. -/
def ofMembers (members : List (String × Json)) : Json :=
  .object (members.foldl (fun map member => insertMember member.1 member.2 map) [])

/-- `Value::get` with the name of a member. -/
def get (value : Json) (name : String) : Option Json :=
  match value with
  | .object members => members.lookup name
  | _ => none

def asStr : Json → Option String
  | .string text => some text
  | _ => none

def asArray : Json → Option (List Json)
  | .array items => some items
  | _ => none

/-- The number that some decimal digits are. -/
def decimal (digits : List Char) : Option Nat :=
  if digits ≠ [] ∧ digits.all Char.isDigit = true then
    some (digits.foldl (fun value digit => 10 * value + (digit.toNat - '0'.toNat)) 0)
  else none

def asU64 : Json → Option Nat
  | .number text => (decimal text.toList).filter fun value => value < 2 ^ 64
  | _ => none

def asI64 : Json → Option Int
  | .number text =>
    match text.toList with
    | '-' :: digits => ((decimal digits).filter fun value => value ≤ 2 ^ 63).map fun value => -(value : Int)
    | digits => ((decimal digits).filter fun value => value < 2 ^ 63).map fun value => (value : Int)
  | _ => none

def ofOption : Option Json → Json := fun value => value.getD .null

def isNull : Json → Bool
  | .null => true
  | _ => false

def isEmptyObject : Json → Bool
  | .object [] => true
  | _ => false

def writeString (text : String) : List Char := '"' :: RecordJson.writeChars text.toList

mutual

def write : Json → List Char
  | .null => "null".toList
  | .bool true => "true".toList
  | .bool false => "false".toList
  | .number text => text.toList
  | .string text => writeString text
  | .array [] => "[]".toList
  | .array (item :: items) => '[' :: write item ++ writeItems items
  | .object [] => ['\x7b', '}']
  | .object ((name, value) :: members) =>
    '\x7b' :: writeString name ++ ':' :: write value ++ writeMembers members

/-- The items after the first. -/
def writeItems : List Json → List Char
  | [] => [']']
  | item :: items => ',' :: write item ++ writeItems items

/-- The members after the first. -/
def writeMembers : List (String × Json) → List Char
  | [] => ['}']
  | (name, value) :: members => ',' :: writeString name ++ ':' :: write value ++ writeMembers members

end

def toString (value : Json) : String := String.ofList value.write

example : toString (ofMembers [("b", .array [.null, .bool true]), ("a", .string "x\"y")]) =
    "\x7b\"a\":\"x\\\"y\",\"b\":[null,true]\x7d" := by decide

end Json

end SpectraGQL.Protocol
