import SpectraGQL.Interceptors.Pipeline
import SpectraGQL.Protocol.Selection

/-! # The syntax check (`GraphQLSyntaxInterceptor` of `interceptors/request.rs`)

The check reads the envelope of a request once more, unless the decoder has told the operation before.
`syntaxCheck_agrees` says that it would find what the decoder has found.
-/

namespace SpectraGQL.Interceptors

open SpectraGQL.Core SpectraGQL.Http SpectraGQL.Protocol

namespace GraphQLSyntaxInterceptor

theorem badRequest_valid : (100 : UInt16) ≤ 400 ∧ (400 : UInt16) < 1000 := by decide

def badRequest : StatusCode := ⟨400, badRequest_valid⟩

def refuse (code message : String) : InterceptorVerdict := .reject ⟨badRequest, code, message, none⟩

def isGraphqlPath (path : String) : Bool := containsText path "graphql" || containsText path "gql"

/-- What the check makes of a body: the operation, or the verdict that refuses it.  `jsonError` is how
    `serde_json` says what is wrong with a text. -/
def check (crates : Crates) (jsonError : String → String) (body : String) :
    Except InterceptorVerdict ParsedGraphQLOperation :=
  if trim body = "" then .error (refuse "GRAPHQL_PARSE_FAILED" "Empty GraphQL request body")
  else
    match crates.fromStr body with
    | none => .error (refuse "GRAPHQL_PARSE_FAILED" ("Invalid JSON request body: " ++ jsonError body))
    | some parsedJson =>
      match (parsedJson.get "query").bind Json.asStr with
      | none => .error (refuse "GRAPHQL_PARSE_FAILED" "Missing 'query' field in GraphQL request body")
      | some query =>
        match parseGraphqlOperationWithName crates query
            ((parsedJson.get "operationName").bind Json.asStr) with
        | .error error => .error (refuse "GRAPHQL_SYNTAX_ERROR" ("Failed to parse GraphQL query: " ++ error))
        | .ok operation => .ok operation

def interceptRequest (crates : Crates) (jsonError : String → String) : RequestInterceptor :=
  fun context parts body =>
    if !isGraphqlPath parts.uri.path then (.pass, context, parts)
    -- parsed and verified by the decoder already
    else if context.operationType.isSome then (.pass, context, parts)
    else
      match check crates jsonError body with
      | .error verdict => (verdict, context, parts)
      | .ok operation =>
        (.pass, { context with
          operationName := operation.operationName, operationType := some operation.operationType }, parts)

section

variable {crates : Crates} {jsonError : String → String} {body : String} {verdict : InterceptorVerdict}
  {operation : ParsedGraphQLOperation}

/-- A body that the check refuses is rejected. -/
theorem isReject_of_check (refused : check crates jsonError body = .error verdict) : verdict.isReject = true := by
  rw [check] at refused
  split at refused
  · cases refused
    rfl
  · split at refused
    · cases refused
      rfl
    · split at refused
      · cases refused
        rfl
      · split at refused
        · cases refused
          rfl
        · cases refused

/-- A body of blanks is no JSON text. -/
def BlankIsNoJson (crates : Crates) : Prop := ∀ body, trim body = "" → crates.fromStr body = none

/-- There is no operation in an empty text. -/
def EmptyHasNoOperation (crates : Crates) : Prop :=
  (crates.parse "").errors = [] → operationsOf (crates.parse "").definitions = []

theorem parse_empty (noOperation : EmptyHasNoOperation crates) (target : Option String) :
    parseGraphqlOperationWithName crates "" target ≠ .ok operation := by
  intro parsed
  obtain ⟨valid, isSelected⟩ := parse_eq_ok_iff.mp parsed
  cases target <;> simp [selectedOperation, noOperation valid] at isSelected

/-- The check finds the operation of a body that the decoder finds in it. -/
theorem check_eq_ok_iff (blank : BlankIsNoJson crates) (noOperation : EmptyHasNoOperation crates) :
    check crates jsonError body = .ok operation ↔
      ∃ value, crates.fromStr body = some value ∧
        parseGraphqlOperationWithName crates (((value.get "query").bind Json.asStr).getD "")
          ((value.get "operationName").bind Json.asStr) = .ok operation := by
  rw [check]
  by_cases isBlank : trim body = ""
  · simp [isBlank, blank body isBlank]
  · rw [if_neg isBlank]
    cases crates.fromStr body with
    | none => simp
    | some value =>
      cases isQuery : (value.get "query").bind Json.asStr with
      | none =>
        -- the decoder reads a missing query as an empty one
        simp [isQuery, parse_empty noOperation]
      | some query =>
        cases parsed : parseGraphqlOperationWithName crates query
            ((value.get "operationName").bind Json.asStr) with
        | error error => simp [isQuery, parsed]
        | ok found => simp [isQuery, parsed]

/-- The decoder tells the operation that it finds in the body, for any other body it fails. -/
theorem decodeRequest_cases (ops : List GraphQLOperationType) (requestId : RequestId) (hlc : HlcTimestamp)
    (parts : RequestParts) :
    (∃ info gql operation, (ProtocolDecoder.graphql ops).decodeRequest crates requestId hlc parts body = .ok info ∧
        info.gql = some gql ∧ gql.operationName = operation.operationName ∧
        gql.operationType = operation.operationType ∧
        ∃ value, crates.fromStr body = some value ∧
          parseGraphqlOperationWithName crates (((value.get "query").bind Json.asStr).getD "")
            ((value.get "operationName").bind Json.asStr) = .ok operation) ∨
      (∃ error, (ProtocolDecoder.graphql ops).decodeRequest crates requestId hlc parts body = .error error) ∧
        ∀ value operation, crates.fromStr body = some value →
          parseGraphqlOperationWithName crates (((value.get "query").bind Json.asStr).getD "")
            ((value.get "operationName").bind Json.asStr) ≠ .ok operation := by
  cases decoded : (ProtocolDecoder.graphql ops).decodeRequest crates requestId hlc parts body with
  | ok info =>
    obtain ⟨value, operation, gql, isJson, parsed, rfl, isType, isName, -, -, -⟩ :=
      ProtocolDecoder.decodeRequest_graphql decoded
    exact .inl ⟨_, gql, operation, rfl, rfl, isName, isType, value, isJson, parsed⟩
  | error error =>
    refine .inr ⟨⟨error, rfl⟩, fun value operation isJson parsed => ?_⟩
    simp [ProtocolDecoder.decodeRequest, GraphQLRequestInfo.new, GraphQLRequestInfo.setRequestJson, isJson,
      parsed] at decoded

end

/-- On a GraphQL path the decoder accepts a body exactly when the full check passes it, with the same
    operation; so a context that the decoder has filled in is as the check would leave it. -/
theorem syntaxCheck_agrees (crates : Crates) (jsonError : String → String) (blank : BlankIsNoJson crates)
    (noOperation : EmptyHasNoOperation crates) (ops : List GraphQLOperationType) (requestId : RequestId)
    (hlc : HlcTimestamp) (parts : RequestParts) (body : String) (context : InterceptorContext)
    (isGraphql : isGraphqlPath parts.uri.path = true) (isFresh : context.operationType = none) :
    ((∃ info, (ProtocolDecoder.graphql ops).decodeRequest crates requestId hlc parts body = .ok info) ↔
      (interceptRequest crates jsonError context parts body).1 = .pass) ∧
    ∀ info, (ProtocolDecoder.graphql ops).decodeRequest crates requestId hlc parts body = .ok info →
      ∃ gql, info.gql = some gql ∧
        let decodedContext := { context with
          operationName := gql.operationName, operationType := some gql.operationType }
        interceptRequest crates jsonError context parts body = (.pass, decodedContext, parts) ∧
        interceptRequest crates jsonError decodedContext parts body = (.pass, decodedContext, parts) := by
  have fullCheck : interceptRequest crates jsonError context parts body =
      match check crates jsonError body with
      | .error verdict => (verdict, context, parts)
      | .ok operation =>
        (.pass, { context with
          operationName := operation.operationName, operationType := some operation.operationType }, parts) := by
    simp [interceptRequest, isGraphql, isFresh]
  cases decodeRequest_cases ops requestId hlc parts with
  | inl decodes =>
    obtain ⟨info, gql, operation, decoded, isGql, isName, isType, found⟩ := decodes
    have checked : check crates jsonError body = .ok operation := (check_eq_ok_iff blank noOperation).mpr found
    have passes : interceptRequest crates jsonError context parts body =
        (.pass, { context with operationName := gql.operationName, operationType := some gql.operationType },
          parts) := by
      rw [fullCheck, checked, isName, isType]
    refine ⟨iff_of_true ⟨info, decoded⟩ (by rw [passes]), fun other isOther => ?_⟩
    obtain rfl : info = other := Except.ok.inj (decoded.symm.trans isOther)
    refine ⟨gql, isGql, passes, ?_⟩
    -- the check is skipped when the operation is told
    simp [interceptRequest]
  | inr fails =>
    obtain ⟨⟨error, failed⟩, none⟩ := fails
    refine ⟨iff_of_false ?_ ?_, fun info decoded => ?_⟩
    · rintro ⟨info, decoded⟩
      rw [failed] at decoded
      cases decoded
    · intro passes
      rw [fullCheck] at passes
      cases checked : check crates jsonError body with
      | ok operation =>
        obtain ⟨value, isJson, parsed⟩ := (check_eq_ok_iff blank noOperation).mp checked
        exact none value operation isJson parsed
      | error verdict =>
        rw [checked] at passes
        have isReject := isReject_of_check checked
        rw [show verdict = .pass from passes] at isReject
        cases isReject
    · rw [failed] at decoded
      cases decoded

/-- The crates on the request `{"query":"{me}"}`. -/
def meCrates : Crates where
  fromStr text :=
    if text = "\x7b\"query\":\"\x7bme\x7d\"\x7d" then some (.object [("query", .string "\x7bme\x7d")]) else none
  parse query :=
    if query = "" then ⟨["expected a definition"], []⟩
    else ⟨[], [.operationDefinition ⟨none, none, some [.field (some "me")]⟩]⟩
  sha256 _ := ""
  statusText _ := ""

theorem syntaxCheck_agrees_me :
    (interceptRequest meCrates id ⟨"1", ⟨0, 0⟩, none, none, none, [], [], 0, none⟩
      ⟨.post, ⟨"", "/graphql", none⟩, []⟩ "\x7b\"query\":\"\x7bme\x7d\"\x7d").1 = .pass := by
  have blank : BlankIsNoJson meCrates := by
    intro body isBlank
    refine if_neg fun isBody => ?_
    rw [isBody] at isBlank
    revert isBlank
    decide +kernel
  have noOperation : EmptyHasNoOperation meCrates := fun _ => rfl
  exact (syntaxCheck_agrees meCrates id blank noOperation [.mutation] "1" ⟨0, 0⟩
    ⟨.post, ⟨"", "/graphql", none⟩, []⟩ "\x7b\"query\":\"\x7bme\x7d\"\x7d"
    ⟨"1", ⟨0, 0⟩, none, none, none, [], [], 0, none⟩ (by decide +kernel) rfl).1.mp ⟨_, rfl⟩

end GraphQLSyntaxInterceptor

end SpectraGQL.Interceptors
