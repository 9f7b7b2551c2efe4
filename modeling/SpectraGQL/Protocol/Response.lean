import SpectraGQL.Protocol.Request
import Mathlib.Data.List.Infix

/-! # Responses (`protocol/{response_body,response_info,error}.rs`)

The body of an upstream response as the gateway keeps it, and the error envelopes that
it writes itself.
-/

namespace SpectraGQL.Protocol

open SpectraGQL.Core SpectraGQL.Http

/-! ## The body of an upstream response -/

structure ResponseBody where
  /-- The text of the JSON value; `null` where there is none. -/
  json : String
  text : Option String
  deriving DecidableEq, Repr

/-- `str::contains`. -/
def containsText (text part : String) : Bool := decide (part.toList <:+: text.toList)

namespace ResponseBody

def isJsonCandidate (headers : HeaderMap) (rawBody : String) : Bool :=
  containsText ((headers.getStr "content-type").getD "") "json" ||
    startsWith (trim rawBody) "\x7b" || startsWith (trim rawBody) "["

def new (crates : Crates) (headers : HeaderMap) (rawBody : String) : ResponseBody :=
  if isJsonCandidate headers rawBody then
    match crates.fromStr rawBody with
    | some value => ⟨value.toString, none⟩
    | none => ⟨"null", some rawBody⟩
  else ⟨"null", some rawBody⟩

/-- What a record keeps of the body: the text, or else the JSON value printed anew. -/
def recorded (body : ResponseBody) : String := body.text.getD body.json

end ResponseBody

structure ResponseInfo where
  requestId : RequestId
  hlc : HlcTimestamp
  responseBody : ResponseBody
  httpResponseHeaders : HeaderMap

/-! ## Error envelopes -/

/-- An error with its extensions; `locations` and `path` are never set. -/
structure GraphQLError where
  message : String
  extensions : List (String × Json)

namespace GraphQLError

def withExtension (error : GraphQLError) (name : String) (value : Json) : GraphQLError :=
  { error with extensions := Json.insertMember name value error.extensions }

def withCode (error : GraphQLError) (code : String) : GraphQLError :=
  error.withExtension "code" (.string code)

end GraphQLError

/-- `GraphQLErrorResponse::single(error).to_json_string()`: fields in the order of their
    declaration, no `extensions` member for an error that has none. -/
def errorResponse (error : GraphQLError) : String :=
  let extensions : List (String × Json) :=
    if error.extensions = [] then [] else [("extensions", .object error.extensions)]
  Json.toString (.object [("errors",
    .array [.object (("message", .string error.message) :: extensions)])])

/-- The body of a 409 response. -/
def conflictResponse (key : Option String) (conflictHlc : HlcTimestamp) : String :=
  let message := match key with
    | some key => "A mutation with idempotency key '" ++ key ++ "' is currently in flight"
    | none => "A mutation with idempotency key is currently in flight"
  errorResponse <|
    (GraphQLError.withCode ⟨message, []⟩ "CONFLICT").withExtension "hlc"
      (.string conflictHlc.toCompactString)

end SpectraGQL.Protocol
