import SpectraGQL.Protocol.Json
import SpectraGQL.Http

/-! # The topic of a subscription (`derive_subscription_topic` of `subscriptions/engine.rs`)

The first field of the first operation names the topic, and one of its arguments narrows it
down: the first that looks like an identifier, or else the first that has a value.
-/

namespace SpectraGQL.Subscriptions

open SpectraGQL.Http SpectraGQL.Protocol

/-! ## What the GraphQL parser returns (`apollo_parser::cst`) -/

inductive ArgumentValue where
  | variable (name : Option String)
  /-- A string as it stands in the query, with its quotes. -/
  | string (source : String)
  | int (source : String)
  | enum (name : Option String)
  /-- Any other kind of value. -/
  | other
  deriving DecidableEq, Repr

structure ArgumentNode where
  name : Option String
  value : Option ArgumentValue
  deriving DecidableEq, Repr

inductive SelectionNode where
  | field (name : Option String) (arguments : Option (List ArgumentNode))
  /-- A fragment, spread or inline. -/
  | fragment
  deriving DecidableEq, Repr

structure OperationNode where
  /-- Whether the operation type is the word `subscription`, where it has one. -/
  subscriptionToken : Option Bool
  selectionSet : Option (List SelectionNode)
  deriving DecidableEq, Repr

inductive DefinitionNode where
  | operation (operation : OperationNode)
  | other
  deriving DecidableEq, Repr

structure SubscriptionDocument where
  errors : List String
  definitions : List DefinitionNode
  deriving DecidableEq, Repr

/-! ## Arguments -/

/-- `trim_matches('"')`. -/
def trimQuotes (text : String) : String :=
  String.ofList
    (((text.toList.dropWhile (· = '"')).reverse.dropWhile (· = '"')).reverse)

/-- Variables that are texts or numbers can narrow a topic down. -/
def variableText (vars : Option Json) (name : String) : Option String :=
  match vars.bind fun value => value.get name with
  | some (.string text) => some text
  | some (.number text) => some text
  | some .null => none
  | some (.bool _) => none
  | some (.array _) => none
  | some (.object _) => none
  | none => none

def argumentText (vars : Option Json) : Option ArgumentValue → Option String
  | some (.variable name) => variableText vars (name.getD "")
  | some (.string source) => some (trimQuotes source)
  | some (.int source) => some source
  | some (.enum name) => name
  | some .other => none
  | none => none

/-- `ends_with("id")` holds of `id` too. -/
def isIdentifier (name : String) : Bool :=
  let lower := toLowercase name
  "id".toList.isSuffixOf lower.toList || lower == "topic"

/-- The loop over the arguments: an identifier ends it. -/
def primaryArgument (vars : Option Json) (primary : Option String) :
    List ArgumentNode → Option String
  | [] => primary
  | argument :: rest =>
    match argumentText vars argument.value with
    | none => primaryArgument vars primary rest
    | some value =>
      if isIdentifier (argument.name.getD "") then some value
      else primaryArgument vars (primary <|> some value) rest

/-! ## Topics -/

def fieldTopic (topicPrefix rootField : String) (argument : Option String) : String :=
  let topic := topicPrefix ++ ".events." ++ toLowercase rootField
  match argument with
  | some value => topic ++ "." ++ value
  | none => topic

/-- The loop over the selections: the first field decides. -/
def scanSelections (topicPrefix : String) (vars : Option Json) :
    List SelectionNode → Option (Except String (String × String))
  | [] => none
  | .fragment :: rest => scanSelections topicPrefix vars rest
  | .field none _ :: _ => some (.error "Field missing name")
  | .field (some rootField) arguments :: _ =>
    some (.ok (fieldTopic topicPrefix rootField (primaryArgument vars none (arguments.getD [])),
      rootField))

/-- The loop over the definitions; an operation of another kind ends it. -/
def scanDocument (topicPrefix : String) (vars : Option Json) :
    List DefinitionNode → Except String (String × String)
  | [] => .error "No subscription operation found in query"
  | .other :: rest => scanDocument topicPrefix vars rest
  | .operation operation :: rest =>
    if operation.subscriptionToken = some true then
      match scanSelections topicPrefix vars (operation.selectionSet.getD []) with
      | some found => found
      | none => scanDocument topicPrefix vars rest
    else .error "Operation must be a subscription"

/-- The topic and the root field of a query, which is parsed by a crate. -/
def deriveSubscriptionTopic (parse : String → SubscriptionDocument) (topicPrefix query : String)
    (vars : Option Json) : Except String (String × String) :=
  let document := parse query
  if document.errors ≠ [] then
    .error ("GraphQL subscription syntax error: " ++ "; ".intercalate document.errors)
  else scanDocument topicPrefix vars document.definitions

example : scanDocument "spectra" (some (.object [("orderId", .string "order-99")]))
    [.operation ⟨some true, some [.field (some "orderUpdates")
      (some [⟨some "first", some (.int "3")⟩, ⟨some "orderId", some (.variable (some "orderId"))⟩])]⟩] =
    .ok ("spectra.events.orderupdates.order-99", "orderUpdates") := by rfl

end SpectraGQL.Subscriptions
