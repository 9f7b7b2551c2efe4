import SpectraGQL.Protocol.Response

/-! # Interceptor pipelines (`interceptors/{context,request,response,manager}.rs`)

An interceptor is what it does to the context, the head of the message and the body it
is given.  A pipeline runs its interceptors in order: the first rejection ends it, and for
requests so does the first transformation.
-/

namespace SpectraGQL.Interceptors

open SpectraGQL.Core SpectraGQL.Http SpectraGQL.Protocol

structure AuthClaims where
  subject : Option String
  tenantId : Option String
  roles : List String
  permissions : List String
  rawClaims : Json

structure InterceptorContext where
  requestId : RequestId
  hlc : HlcTimestamp
  operationName : Option String := none
  operationType : Option GraphQLOperationType := none
  jsonBody : Option Json := none
  metadata : List (String × String) := []
  extensions : List (String × Json) := []
  durationMs : Nat := 0
  claims : Option AuthClaims := none

structure InterceptorRejection where
  statusCode : StatusCode
  code : String
  message : String
  details : Option Json

/-- The error envelope of a rejection. -/
def InterceptorRejection.toGraphqlResponse (rejection : InterceptorRejection) : String :=
  let error := GraphQLError.withCode ⟨rejection.message, []⟩ rejection.code
  errorResponse <| match rejection.details with
    | some details => error.withExtension "details" details
    | none => error

inductive InterceptorVerdict where
  | pass
  | reject (rejection : InterceptorRejection)
  | transform (headers : Option HeaderMap) (body : Option Bytes)
  | audit (ruleName : String) (tag : Option String) (reason : String)

def InterceptorVerdict.isReject : InterceptorVerdict → Bool
  | .reject _ => true
  | _ => false

/-! ## Requests -/

abbrev RequestInterceptor :=
  InterceptorContext → RequestParts → String → InterceptorVerdict × InterceptorContext × RequestParts

abbrev RequestInterceptorPipeline := List RequestInterceptor

namespace RequestInterceptorPipeline

/-- The loop of `intercept_request`; `audit` is the last audit verdict so far. -/
def interceptFrom (body : String) (audit : Option InterceptorVerdict) :
    RequestInterceptorPipeline → InterceptorContext → RequestParts →
      InterceptorVerdict × InterceptorContext × RequestParts
  | [], context, parts => (audit.getD .pass, context, parts)
  | interceptor :: rest, context, parts =>
    match interceptor context parts body with
    | (.pass, context, parts) => interceptFrom body audit rest context parts
    | (.audit ruleName tag reason, context, parts) =>
      interceptFrom body (some (.audit ruleName tag reason)) rest context parts
    | ended => ended

def interceptRequest (pipeline : RequestInterceptorPipeline) (context : InterceptorContext)
    (parts : RequestParts) (body : String) : InterceptorVerdict × InterceptorContext × RequestParts :=
  interceptFrom body none pipeline context parts

end RequestInterceptorPipeline

/-! ## Responses -/

abbrev ResponseInterceptor :=
  InterceptorContext → ResponseHeader → Bytes → InterceptorVerdict × ResponseHeader

abbrev ResponseInterceptorPipeline := List ResponseInterceptor

namespace ResponseInterceptorPipeline

/-- What the loop of `intercept_response` carries along. -/
structure Progress where
  body : Option Bytes := none
  headers : Option HeaderMap := none
  audit : Option InterceptorVerdict := none

def Progress.verdict (progress : Progress) : InterceptorVerdict :=
  if progress.body.isSome || progress.headers.isSome then
    .transform progress.headers progress.body
  else progress.audit.getD .pass

def interceptFrom (context : InterceptorContext) (body : Bytes) (progress : Progress) :
    ResponseInterceptorPipeline → ResponseHeader → InterceptorVerdict × ResponseHeader
  | [], parts => (progress.verdict, parts)
  | interceptor :: rest, parts =>
    match interceptor context parts (progress.body.getD body) with
    | (.pass, parts) => interceptFrom context body progress rest parts
    | (.reject rejection, parts) => (.reject rejection, parts)
    | (.transform headers newBody, parts) =>
      interceptFrom context body
        { progress with headers := headers <|> progress.headers, body := newBody <|> progress.body }
        rest parts
    | (.audit ruleName tag reason, parts) =>
      interceptFrom context body { progress with audit := some (.audit ruleName tag reason) }
        rest parts

def interceptResponse (pipeline : ResponseInterceptorPipeline) (context : InterceptorContext)
    (parts : ResponseHeader) (body : Bytes) : InterceptorVerdict × ResponseHeader :=
  interceptFrom context body {} pipeline parts

end ResponseInterceptorPipeline

/-! ## The manager -/

structure InterceptorManager where
  globalRequestPipeline : RequestInterceptorPipeline
  globalResponsePipeline : ResponseInterceptorPipeline
  routeRequestPipelines : List (String × RequestInterceptorPipeline)
  routeResponsePipelines : List (String × ResponseInterceptorPipeline)

namespace InterceptorManager

/-- The global interceptors, then those of the route with exactly this name. -/
def compose {α : Type} (globalPipeline : List α) (routePipelines : List (String × List α))
    (operation : Option String) : List α :=
  globalPipeline ++ ((operation.bind fun name => routePipelines.lookup name).getD [])

def getRequestPipeline (manager : InterceptorManager) (operation : Option String) :
    RequestInterceptorPipeline :=
  compose manager.globalRequestPipeline manager.routeRequestPipelines operation

def getResponsePipeline (manager : InterceptorManager) (operation : Option String) :
    ResponseInterceptorPipeline :=
  compose manager.globalResponsePipeline manager.routeResponsePipelines operation

def hasResponseInterceptors (manager : InterceptorManager) (operation : Option String) : Bool :=
  if !manager.globalResponsePipeline.isEmpty then true
  else
    match operation.bind fun name => manager.routeResponsePipelines.lookup name with
    | some pipeline => !pipeline.isEmpty
    | none => false

/-- A response is intercepted exactly when its pipeline has an interceptor to run. -/
theorem hasResponseInterceptors_iff (manager : InterceptorManager) (operation : Option String) :
    manager.hasResponseInterceptors operation ↔ manager.getResponsePipeline operation ≠ [] := by
  unfold hasResponseInterceptors getResponsePipeline compose
  cases manager.globalResponsePipeline with
  | cons interceptor rest => simp
  | nil =>
    cases operation.bind fun name => manager.routeResponsePipelines.lookup name with
    | none => simp
    | some pipeline => cases pipeline <;> simp

end InterceptorManager

end SpectraGQL.Interceptors
