import SpectraGQL.Protocol.Json

/-! # Decoding a request (`protocol/{gql_request,parser,decoder,request_info}.rs`)

What the gateway knows of a request: its HTTP parts and, for a GraphQL request, the
operation that its body selects.  JSON and GraphQL texts are read by crates outside the
repository; `Crates` stands for them.
-/

namespace SpectraGQL.Protocol

open SpectraGQL.Core SpectraGQL.Http

/-! ## What the GraphQL parser returns (`apollo_parser::cst`) -/

/-- The tokens of an operation type. -/
structure OperationTypeNode where
  queryToken : Bool
  mutationToken : Bool
  subscriptionToken : Bool

inductive Selection where
  | field (name : Option String)
  | fragmentSpread (name : Option String)
  | inlineFragment (selections : List Selection)

structure OperationDefinition where
  operationType : Option OperationTypeNode
  name : Option String
  selectionSet : Option (List Selection)

inductive Definition where
  | operationDefinition (definition : OperationDefinition)
  | fragmentDefinition (name : Option String) (selectionSet : Option (List Selection))
  | typeSystemDefinition

structure SyntaxTree where
  errors : List String
  definitions : List Definition

/-- The crates that read texts and hash bytes. -/
structure Crates where
  /-- `serde_json::from_str::<Value>`. -/
  fromStr : String → Option Json
  /-- `apollo_parser::Parser::new(query).parse()`. -/
  parse : String → SyntaxTree
  /-- `sha2::Sha256`, printed in lower-case hexadecimal. -/
  sha256 : Bytes → String
  /-- How `http::StatusCode` is printed: the number and its canonical reason. -/
  statusText : StatusCode → String

/-! ## Operations -/

inductive GraphQLOperationType where
  | query | mutation | subscription | unknown
  deriving DecidableEq, Repr

def GraphQLOperationType.toString : GraphQLOperationType → String
  | .query => "Query"
  | .mutation => "Mutation"
  | .subscription => "Subscription"
  | .unknown => "Unknown"

structure ParsedGraphQLOperation where
  operationType : GraphQLOperationType
  operationName : Option String
  rootFields : List String
  deriving DecidableEq, Repr

namespace OperationDefinition

def typeOf (definition : OperationDefinition) : GraphQLOperationType :=
  match definition.operationType with
  | some node =>
    if node.queryToken then .query
    else if node.mutationToken then .mutation
    else if node.subscriptionToken then .subscription
    else .unknown
  -- the shorthand `{ … }` is a query
  | none => .query

/-- The names of the fields in the selection set itself; fragments are not entered. -/
def rootFields (definition : OperationDefinition) : List String :=
  (definition.selectionSet.getD []).filterMap fun
    | .field name => name
    | _ => none

def parsed (definition : OperationDefinition) : ParsedGraphQLOperation :=
  ⟨definition.typeOf, definition.name, definition.rootFields⟩

def isNamed (definition : OperationDefinition) (target : String) : Bool :=
  match definition.name with
  | some name => eqIgnoreAsciiCase name target
  | none => false

end OperationDefinition

/-- The loop over the definitions of a document: the operation with the wanted name, and
    the first operation met on the way. -/
def scanDefinitions (target : Option String) (firstOp : Option ParsedGraphQLOperation) :
    List Definition → Option ParsedGraphQLOperation × Option ParsedGraphQLOperation
  | [] => (none, firstOp)
  | .operationDefinition definition :: rest =>
    match target with
    | some name =>
      if definition.isNamed name then (some definition.parsed, firstOp)
      else scanDefinitions target (firstOp <|> some definition.parsed) rest
    | none =>
      if firstOp.isNone then (none, some definition.parsed)
      else scanDefinitions target firstOp rest
  | _ :: rest => scanDefinitions target firstOp rest

def parseGraphqlOperationWithName (crates : Crates) (query : String) (target : Option String) :
    Except String ParsedGraphQLOperation :=
  let ast := crates.parse query
  if ast.errors ≠ [] then
    .error ("GraphQL syntax error: " ++ "; ".intercalate ast.errors)
  else
    match scanDefinitions target none ast.definitions, target with
    | (some operation, _), _ => .ok operation
    | (none, _), some name => .error ("Operation '" ++ name ++ "' not found in GraphQL document")
    | (none, some operation), none => .ok operation
    | (none, none), none => .error "No operation definition found in GraphQL query"

/-! ## Requests -/

structure GraphQLRequestBody where
  query : String
  operationName : Option String
  vars : Option Json
  extensions : Option Json

structure GraphQLRequestInfo where
  operationType : GraphQLOperationType
  operationName : Option String
  rootFields : List String
  rawBody : Option String
  jsonBody : Json
  parsedBody : Option GraphQLRequestBody

namespace GraphQLRequestInfo

/-- `set_request_json`: a text that is not JSON leaves the body unset, a JSON value of any
    shape sets it, with an empty query where the value has none. -/
def setRequestJson (crates : Crates) (info : GraphQLRequestInfo) (requestJson : String) :
    GraphQLRequestInfo :=
  match crates.fromStr requestJson with
  | some value =>
    { info with
      rawBody := some requestJson
      parsedBody := some
        { query := ((value.get "query").bind Json.asStr).getD ""
          operationName := (value.get "operationName").bind Json.asStr
          vars := value.get "variables"
          extensions := value.get "extensions" }
      jsonBody := value }
  | none => { info with rawBody := some requestJson }

def new (crates : Crates) (requestJson : String) : GraphQLRequestInfo :=
  setRequestJson crates ⟨.unknown, none, [], none, .null, none⟩ requestJson

def matchesOperation (info : GraphQLRequestInfo) (target : String) : Bool :=
  (match info.operationName with
    | some name => eqIgnoreAsciiCase name target
    | none => false) ||
  info.rootFields.any fun field => eqIgnoreAsciiCase field target

def isMutation (info : GraphQLRequestInfo) : Bool := info.operationType = .mutation

end GraphQLRequestInfo

/-- The hyphenated text of the request's UUID. -/
abbrev RequestId := String

structure RequestInfo where
  requestId : RequestId
  hlc : HlcTimestamp
  http : RequestParts
  gql : Option GraphQLRequestInfo

namespace RequestInfo

def new (requestId : RequestId) (hlc : HlcTimestamp) (parts : RequestParts) : RequestInfo :=
  ⟨requestId, hlc, parts, none⟩

def operationName (info : RequestInfo) : Option String :=
  info.gql.bind GraphQLRequestInfo.operationName

end RequestInfo

/-! ## Decoders -/

inductive ProtocolDecoder where
  | graphql (opsToDispatch : List GraphQLOperationType)
  | http

def ProtocolDecoder.decodeRequest (crates : Crates) (decoder : ProtocolDecoder)
    (requestId : RequestId) (hlc : HlcTimestamp) (parts : RequestParts) (body : String) :
    Except String RequestInfo :=
  match decoder with
  | .graphql _ =>
    let info := GraphQLRequestInfo.new crates body
    match info.parsedBody with
    | none => .error "Request body has not been set or is invalid JSON."
    | some requestBody =>
      match parseGraphqlOperationWithName crates requestBody.query requestBody.operationName with
      | .error message => .error message
      | .ok operation =>
        .ok { RequestInfo.new requestId hlc parts with
          gql := some { info with
            operationName := operation.operationName
            operationType := operation.operationType
            rootFields := operation.rootFields } }
  | .http => .ok (RequestInfo.new requestId hlc parts)

/-- A request without an operation came through the decoder that looks at no body; any other
    keeps the text that it was decoded from. -/
theorem ProtocolDecoder.decodeRequest_eq_ok {crates : Crates} {decoder : ProtocolDecoder}
    {requestId : RequestId} {hlc : HlcTimestamp} {parts : RequestParts} {body : String}
    {info : RequestInfo} (success : decoder.decodeRequest crates requestId hlc parts body = .ok info) :
    (decoder = .http ∧ info.gql = none) ∨ ∃ gql, info.gql = some gql ∧ gql.rawBody = some body := by
  cases decoder with
  | http =>
    cases success
    exact .inl ⟨rfl, rfl⟩
  | graphql ops =>
    simp only [decodeRequest] at success
    split at success
    · cases success
    · split at success
      · cases success
      · cases success
        refine .inr ⟨_, rfl, ?_⟩
        unfold GraphQLRequestInfo.new GraphQLRequestInfo.setRequestJson
        cases crates.fromStr body <;> rfl

/-- An operation is parsed from the value of the body, and keeps that value. -/
theorem ProtocolDecoder.decodeRequest_graphql {crates : Crates} {ops : List GraphQLOperationType}
    {requestId : RequestId} {hlc : HlcTimestamp} {parts : RequestParts} {body : String}
    {info : RequestInfo}
    (success : (ProtocolDecoder.graphql ops).decodeRequest crates requestId hlc parts body = .ok info) :
    ∃ value operation gql, crates.fromStr body = some value ∧
      parseGraphqlOperationWithName crates (((value.get "query").bind Json.asStr).getD "")
        ((value.get "operationName").bind Json.asStr) = .ok operation ∧
      info = ⟨requestId, hlc, parts, some gql⟩ ∧ gql.operationType = operation.operationType ∧
      gql.operationName = operation.operationName ∧ gql.rootFields = operation.rootFields ∧
      gql.rawBody = some body ∧ gql.jsonBody = value := by
  unfold decodeRequest GraphQLRequestInfo.new GraphQLRequestInfo.setRequestJson at success
  cases isValue : crates.fromStr body with
  | none =>
    rw [isValue] at success
    cases success
  | some value =>
    rw [isValue] at success
    dsimp only at success
    split at success
    · cases success
    · rename_i operation parsed
      cases success
      exact ⟨value, operation, _, rfl, parsed, rfl, rfl, rfl, rfl, rfl, rfl⟩

end SpectraGQL.Protocol
