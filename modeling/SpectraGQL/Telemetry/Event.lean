import SpectraGQL.Protocol.Response

/-! # What goes to the broker (`telemetry/{topic,event}.rs`) -/

namespace SpectraGQL.Telemetry

open SpectraGQL.Core SpectraGQL.Http SpectraGQL.Protocol

namespace TopicResolver

/-- The topic of a request; every sink resolves it in this way. -/
def resolveDispatchTopic (info : RequestInfo) : String :=
  match info.gql with
  | some gql =>
    let name := (gql.operationName <|> gql.rootFields.head?).getD "anonymous"
    toLowercase (gql.operationType.toString ++ "." ++ name)
  | none =>
    let uri := info.http.uri.toString.toList.map fun char => if char = '.' then '_' else char
    -- method names are upper case already, or kept as the client wrote them
    String.ofList (info.http.method.toString.toList.map Char.toUpper) ++ "." ++
      toLowercase (String.ofList uri)

def failedTopic (topic : String) : String := topic ++ ".failed"

def rejectionTopic (operationName : String) : String :=
  "interceptors.rejected." ++ toLowercase operationName

end TopicResolver

inductive OperationOutcome where
  | success | failed | rejected
  deriving DecidableEq, Repr

/-- The event that ends a request on the broker. -/
structure TerminalEvent where
  id : RequestId
  hlc : HlcTimestamp
  status : OperationOutcome
  operationName : Option String
  /-- Sanitized, as everything that leaves for the broker. -/
  request : RequestInfo
  response : Option ResponseInfo
  error : Option String

namespace TerminalEvent

def success (id : RequestId) (hlc : HlcTimestamp) (operationName : Option String)
    (request : RequestInfo) (response : ResponseInfo) : TerminalEvent :=
  ⟨id, hlc, .success, operationName, request, some response, none⟩

def failure (id : RequestId) (hlc : HlcTimestamp) (operationName : Option String)
    (request : RequestInfo) (response : Option ResponseInfo) (error : String) : TerminalEvent :=
  ⟨id, hlc, .failed, operationName, request, response, some error⟩

end TerminalEvent

end SpectraGQL.Telemetry
