import SpectraGQL.Protocol.Request

/-! # The operations to dispatch (`GraphQLDecoder::new` of `protocol/decoder.rs`) -/

namespace SpectraGQL.Protocol

open SpectraGQL.Http

/-- The operation type of a name, in any case. -/
def GraphQLOperationType.fromStr (text : String) : Option GraphQLOperationType :=
  [GraphQLOperationType.query, .mutation, .subscription, .unknown].find? fun operationType =>
    eqIgnoreAsciiCase operationType.toString text

namespace GraphQLDecoder

/-- The loop over the names; empty ones are left out. -/
def readOps : List String → Except String (List GraphQLOperationType)
  | [] => .ok []
  | name :: rest =>
    if trim name = "" then readOps rest
    else
      match GraphQLOperationType.fromStr (trim name) with
      | none => .error ("Invalid GraphQL operation type '" ++ trim name ++ "': Matching variant not found")
      | some op =>
        match readOps rest with
        | .ok ops => .ok (op :: ops)
        | .error error => .error error

def tryNew (opsToDispatch : String) : Except String (List GraphQLOperationType) :=
  readOps (splitOn ',' opsToDispatch)

/-- Names that are not understood leave the mutations only. -/
def new (opsToDispatch : String) : ProtocolDecoder :=
  match tryNew opsToDispatch with
  | .ok ops => .graphql ops
  | .error _ => .graphql [.mutation]

end GraphQLDecoder

end SpectraGQL.Protocol
