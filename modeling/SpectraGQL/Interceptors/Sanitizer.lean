import SpectraGQL.Protocol.Request

/-! # The sanitizer (`interceptors/sanitizer.rs`, `RequestInfo::sanitize`)

What is masked before a request leaves for the broker: the values under sensitive keys, at
most 64 levels deep, and bearer tokens.  The path, the query of the URI and everything that
says which operation it is stay as they are.
-/

namespace SpectraGQL.Interceptors

open SpectraGQL.Http SpectraGQL.Protocol

def defaultSensitiveKeys : List String :=
  ["password", "pass", "token", "secret", "apikey", "api_key", "creditcard", "credit_card", "cvv",
    "cvc", "ssn", "pin", "auth", "authorization"]

def redactedPlaceholder : String := "[REDACTED]"

def redactedBearer : String := "Bearer " ++ redactedPlaceholder

/-! ## Keys -/

def isKeySeparator (char : Char) : Bool := char == '_' || char == '-' || char == '.' || char == ' '

def flushToken (current : List Char) : List String :=
  if current.isEmpty then [] else [toLowercase (String.ofList current)]

/-- The loop over the characters of a key: separators end a token, and so does an upper-case
    letter after one that is not. -/
def splitKeyTokensFrom (current : List Char) (prevIsLower : Bool) : List Char → List String
  | [] => flushToken current
  | char :: rest =>
    if isKeySeparator char then flushToken current ++ splitKeyTokensFrom [] false rest
    else if char.isUpper then
      if prevIsLower && !current.isEmpty then flushToken current ++ splitKeyTokensFrom [char] false rest
      else splitKeyTokensFrom (current ++ [char]) false rest
    else splitKeyTokensFrom (current ++ [char]) true rest

def splitKeyTokens (key : String) : List String := splitKeyTokensFrom [] false key.toList

example : splitKeyTokens "x-userAPIKey_2" = ["x", "user", "apikey", "2"] := by decide

/-- `replace(['-', '_'], "")`. -/
def withoutDashes (key : String) : String :=
  String.ofList (key.toList.filter fun char => !(char == '-' || char == '_'))

/-- The concatenations of up to four tokens in a row. -/
def compounds : List String → List String
  | [] => []
  | token :: rest =>
    (List.range 4).map (fun count => String.join (token :: rest.take count)) ++ compounds rest

structure Sanitizer where
  sensitiveKeys : List String

namespace Sanitizer

def new (customKeys : Option (List String)) : Sanitizer :=
  ⟨defaultSensitiveKeys.map toLowercase ++ (customKeys.getD []).map toLowercase⟩

def defaultSanitizer : Sanitizer := new none

/-- The spelling is that of a sensitive key. -/
def matchesKey (sanitizer : Sanitizer) (spelling : String) : Bool :=
  sanitizer.sensitiveKeys.any fun key => spelling == withoutDashes key

/-- The whole key, one of its tokens or a few of them in a row are a sensitive key. -/
def isSensitiveKey (sanitizer : Sanitizer) (key : String) : Bool :=
  sanitizer.matchesKey (withoutDashes (toLowercase key)) ||
    (splitKeyTokens key).any sanitizer.matchesKey ||
    (compounds (splitKeyTokens key)).any sanitizer.matchesKey

example : (["user_password", "accessToken", "creditCard", "Authorization", "passenger"].map
    defaultSanitizer.isSensitiveKey) = [true, true, true, true, false] := by decide +kernel

end Sanitizer

/-! ## Values -/

/-- The two regular expressions that are replaced in query texts. -/
structure Patterns where
  /-- A sensitive argument with a literal, in any case: the literal becomes the placeholder. -/
  replaceLiterals : String → String
  /-- A bearer token in any place. -/
  replaceBearers : String → String

def isBearer (text : String) : Bool := startsWith (toLowercase text) "bearer "

/-- What a sensitive value becomes. -/
def maskText (text : String) : String :=
  if isBearer text then redactedBearer else redactedPlaceholder

def maskValue : Json → Json
  | .string text => .string (maskText text)
  | .null => .string redactedPlaceholder
  | .bool _ => .string redactedPlaceholder
  | .number _ => .string redactedPlaceholder
  | .array _ => .string redactedPlaceholder
  | .object _ => .string redactedPlaceholder

/-- A text outside of sensitive members. -/
def maskBearer (text : String) : String := if isBearer text then redactedBearer else text

def sanitizeGqlQueryStr (patterns : Patterns) (query : String) : String :=
  patterns.replaceBearers (patterns.replaceLiterals query)

/-- A member called `query`; only a text is looked into. -/
def sanitizeQuery (patterns : Patterns) : Json → Json
  | .string query => .string (sanitizeGqlQueryStr patterns query)
  | .null => .null
  | .bool value => .bool value
  | .number text => .number text
  | .array items => .array items
  | .object members => .object members

/-- A member of that name is a query text. -/
def isQueryKey (name : String) : Bool := toLowercase name == "query"

namespace Sanitizer

mutual

def sanitizeValueDepth (sanitizer : Sanitizer) (patterns : Patterns) (depth : Nat) : Json → Json
  | .null => .null
  | .bool value => .bool value
  | .number text => .number text
  | .string text => if depth > 64 then .string text else .string (maskBearer text)
  | .array items =>
    if depth > 64 then .array items
    else .array (sanitizeItems sanitizer patterns (depth + 1) items)
  | .object members =>
    if depth > 64 then .object members
    else .object (sanitizeMembers sanitizer patterns (depth + 1) members)

/-- The loop over the items of an array. -/
def sanitizeItems (sanitizer : Sanitizer) (patterns : Patterns) (depth : Nat) : List Json → List Json
  | [] => []
  | item :: items =>
    sanitizeValueDepth sanitizer patterns depth item :: sanitizeItems sanitizer patterns depth items

/-- The loop over the members of an object. -/
def sanitizeMembers (sanitizer : Sanitizer) (patterns : Patterns) (depth : Nat) :
    List (String × Json) → List (String × Json)
  | [] => []
  | (name, value) :: members =>
    (name,
      if sanitizer.isSensitiveKey name then maskValue value
      else if isQueryKey name then sanitizeQuery patterns value
      else sanitizeValueDepth sanitizer patterns depth value) ::
    sanitizeMembers sanitizer patterns depth members

end

def sanitizeValue (sanitizer : Sanitizer) (patterns : Patterns) (value : Json) : Json :=
  sanitizer.sanitizeValueDepth patterns 0 value

/-- A text that is not JSON is taken for a query. -/
def sanitizeJsonStr (sanitizer : Sanitizer) (patterns : Patterns) (fromStr : String → Option Json)
    (raw : String) : String :=
  match fromStr raw with
  | some value => (sanitizer.sanitizeValue patterns value).toString
  | none => sanitizeGqlQueryStr patterns raw

/-- What a header becomes; a value that is not text is never a bearer token. -/
def sanitizeHeader (sanitizer : Sanitizer) (name : String) (value : HeaderValue) : HeaderValue :=
  if sanitizer.isSensitiveKey name then
    .ofString (((HeaderValue.toStr value).map maskText).getD redactedPlaceholder)
  else value

/-- The loop over the headers; of several headers of one name the last is kept. -/
def sanitizeHeaders (sanitizer : Sanitizer) (headers : HeaderMap) : HeaderMap :=
  headers.foldl (fun sanitized header =>
    HeaderMap.insert sanitized header.1 (sanitizer.sanitizeHeader header.1 header.2)) []

/-- `GraphQLRequestInfo::sanitize`. -/
def sanitizeGql (sanitizer : Sanitizer) (patterns : Patterns) (fromStr : String → Option Json)
    (gql : GraphQLRequestInfo) : GraphQLRequestInfo :=
  { gql with
    rawBody := gql.rawBody.map (sanitizer.sanitizeJsonStr patterns fromStr)
    jsonBody := if gql.jsonBody.isNull then gql.jsonBody else sanitizer.sanitizeValue patterns gql.jsonBody
    parsedBody := gql.parsedBody.map fun body =>
      { body with vars := body.vars.map (sanitizer.sanitizeValue patterns) } }

/-- `RequestInfo::sanitize`, for a request that keeps no raw body. -/
def sanitizeRequest (sanitizer : Sanitizer) (patterns : Patterns) (fromStr : String → Option Json)
    (info : RequestInfo) : RequestInfo :=
  { info with
    http := { info.http with headers := sanitizer.sanitizeHeaders info.http.headers }
    gql := info.gql.map (sanitizer.sanitizeGql patterns fromStr) }

end Sanitizer

end SpectraGQL.Interceptors
