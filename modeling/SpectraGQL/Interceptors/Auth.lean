import SpectraGQL.Data.LruCache
import SpectraGQL.Interceptors.Jwt
import SpectraGQL.Interceptors.Pipeline

/-! # Authorization (`interceptors/auth.rs`, `DeployAuthInterceptor` of `interceptors/request.rs`)

`RbacRequestInterceptor` resolves the identity behind a bearer token, keeps resolved tokens
in a cache, and decides by the name of the operation.  `DeployAuthInterceptor` asks for a
token on the operations that deploy.  `interceptRequest` is given the state of the cache
and the clocks that one request meets; `asInterceptor` is what a pipeline sees of it.
-/

namespace SpectraGQL.Interceptors

open SpectraGQL.Http SpectraGQL.Protocol Data

inductive PolicyMode where
  | auditOnly | passAll | allowAuthenticated | denyUnlisted
  deriving DecidableEq, Repr

/-! ## Claims -/

structure ClaimsMapping where
  subjectPath : String := "sub"
  tenantPath : Option String := some "org_id"
  rolesPath : String := "roles"
  permissionsPath : Option String := some "permissions"
  deriving DecidableEq, Repr

/-- The texts in an array; other items are skipped. -/
def stringItems (items : List Json) : List String := items.filterMap Json.asStr

def extractClaimsFromJson (json : Json) (mapping : ClaimsMapping) : AuthClaims where
  subject := (json.get mapping.subjectPath).bind Json.asStr
  tenantId := (mapping.tenantPath.bind json.get).bind Json.asStr
  roles :=
    match json.get mapping.rolesPath with
    | some (.array items) => stringItems items
    | some (.string role) => [role]
    | _ => []
  permissions :=
    match mapping.permissionsPath.bind json.get with
    | some (.array items) => stringItems items
    | _ => []
  rawClaims := json

/-! ## The identity of a caller -/

structure CachedAuth where
  claims : AuthClaims
  expiresAt : Nat

/-- The tokens resolved before, with the ends of their time in the cache. -/
abbrev TokenCache := LruCache String CachedAuth

/-- The monotonic clock in nanoseconds, and the seconds since the epoch. -/
structure ClockReading where
  instant : Nat
  epochSecs : Int

structure RbacRequestInterceptor where
  provider : Option AuthProvider
  claimsMapping : ClaimsMapping
  mutationsDefault : PolicyMode
  queriesDefault : PolicyMode
  unauthenticatedOps : List String
  /-- The roles that each operation asks for. -/
  rolePermissions : List (String × List String)
  cacheTtl : Nat

/-- The token of an `Authorization: Bearer` header, in any case. -/
def bearerToken (headers : HeaderMap) : Option String :=
  (headers.getStr "authorization").bind fun value =>
    let header := (trim value).toList
    if header.length > 7 ∧ eqIgnoreAsciiCase (String.ofList (header.take 7)) "bearer " then
      some (trim (String.ofList (header.drop 7)))
    else none

/-- Who a request comes from, as far as its token says; or what is wrong with the token. -/
structure Identity where
  claims : Option AuthClaims := none
  tokenError : Option String := none

/-- Crates that accept no token. -/
def noCrates : JwtCrates :=
  ⟨fun _ => none, fun _ => .error "", fun _ => .error "", fun _ _ _ => false, fun _ _ _ => false,
    fun _ _ _ => false⟩

/-- The cache before the first request. -/
def coldCache : TokenCache := LruCache.empty 10000 (by decide)

namespace RbacRequestInterceptor

def new : RbacRequestInterceptor where
  provider := none
  claimsMapping := {}
  mutationsDefault := .auditOnly
  queriesDefault := .passAll
  unauthenticatedOps := ["IntrospectionQuery", "__schema", "requestMagicLink", "verifyMagicLink"]
  rolePermissions := []
  cacheTtl := 60000000000

def withProvider (rbac : RbacRequestInterceptor) (provider : AuthProvider) : RbacRequestInterceptor :=
  { rbac with provider := some provider }

def withPolicies (rbac : RbacRequestInterceptor) (mutations queries : PolicyMode) :
    RbacRequestInterceptor :=
  { rbac with mutationsDefault := mutations, queriesDefault := queries }

def allowUnauthenticated (rbac : RbacRequestInterceptor) (op : String) : RbacRequestInterceptor :=
  { rbac with unauthenticatedOps := op :: rbac.unauthenticatedOps }

/-- Add a role to those of an operation. -/
def grantOp (role : String) : List (String × List String) → String → List (String × List String)
  | [], op => [(op, [role])]
  | (other, roles) :: rest, op =>
    if other = op then (other, roles ++ [role]) :: rest else (other, roles) :: grantOp role rest op

def grantRole (rbac : RbacRequestInterceptor) (role : String) (ops : List String) :
    RbacRequestInterceptor :=
  { rbac with rolePermissions := ops.foldl (grantOp role) rbac.rolePermissions }

/-- Verify a token at the provider and keep what it claims. -/
def verifyToken (crates : JwtCrates) (rbac : RbacRequestInterceptor) (cache : TokenCache)
    (reading : ClockReading) (token : String) : Except String AuthClaims × TokenCache :=
  match rbac.provider with
  | none => (.error "No authentication provider configured", cache)
  | some provider =>
    match provider.verifyJwt crates reading.epochSecs token with
    | .error error => (.error error, cache)
    | .ok rawJson =>
      let claims := extractClaimsFromJson rawJson rbac.claimsMapping
      (.ok claims, (cache.put token ⟨claims, reading.instant + rbac.cacheTtl⟩).2)

def resolveClaimsFromToken (crates : JwtCrates) (rbac : RbacRequestInterceptor) (cache : TokenCache)
    (reading : ClockReading) (token : String) : Except String AuthClaims × TokenCache :=
  match cache.get token with
  | (some cached, touched) =>
    if reading.instant < cached.expiresAt then (.ok cached.claims, touched)
    else rbac.verifyToken crates touched reading token
  | (none, cache) => rbac.verifyToken crates cache reading token

/-- A request without a token has no identity, and nothing is wrong with it. -/
def resolveIdentity (crates : JwtCrates) (rbac : RbacRequestInterceptor) (cache : TokenCache)
    (reading : ClockReading) (headers : HeaderMap) : Identity × TokenCache :=
  match bearerToken headers with
  | none => ({}, cache)
  | some token =>
    match rbac.resolveClaimsFromToken crates cache reading token with
    | (.ok claims, cache) => ({ claims := some claims }, cache)
    | (.error error, cache) => ({ tokenError := some error }, cache)

/-! ## Headers for the upstream -/

def insertText (headers : HeaderMap) (name : String) (text : Option String) : HeaderMap :=
  match text.bind HeaderValue.fromStr with
  | some value => headers.insert name value
  | none => headers

def rolesCsv (claims : AuthClaims) : Option String :=
  if claims.roles = [] then none else some (",".intercalate claims.roles)

def injectClaims (headers : HeaderMap) : Option AuthClaims → HeaderMap
  | none => headers
  | some claims =>
    insertText (insertText (insertText headers "x-user-id" claims.subject)
      "x-tenant-id" claims.tenantId) "x-user-roles" (rolesCsv claims)

/-! ## The decision -/

def policyFor (rbac : RbacRequestInterceptor) (operationType : Option GraphQLOperationType) : PolicyMode :=
  if operationType = some .mutation then rbac.mutationsDefault else rbac.queriesDefault

def hasRole (claims : Option AuthClaims) (required : List String) : Bool :=
  claims.any fun claims => claims.roles.any fun role => role == "*" || required.contains role

def hasPermission (rbac : RbacRequestInterceptor) (policy : PolicyMode) (opName : String)
    (claims : Option AuthClaims) : Bool :=
  match rbac.rolePermissions.lookup opName with
  | some required => hasRole claims required
  | none =>
    match policy with
    | .passAll => true
    | .auditOnly => false
    | .allowAuthenticated => claims.isSome
    | .denyUnlisted => false

def authenticationRequired (identity : Identity) (message : String) : InterceptorVerdict :=
  .reject ⟨.unauthorized, "AUTHENTICATION_REQUIRED", identity.tokenError.getD message, none⟩

/-- What a policy does with an operation that the caller has no permission for. -/
def withoutPermission (policy : PolicyMode) (opName : String) (identity : Identity) :
    InterceptorVerdict :=
  let subject := identity.claims.bind AuthClaims.subject
  match policy with
  | .passAll => .pass
  | .auditOnly => .audit "rbac_audit_mode" (some "AUTH_AUDIT")
      ("Operation '" ++ opName ++ "' executed without required role (identity: " ++
        debugOption subject ++ ", token_err: " ++ debugOption identity.tokenError ++ ")")
  | .allowAuthenticated =>
    if identity.claims.isSome then .pass
    else authenticationRequired identity "Valid authentication token required"
  | .denyUnlisted =>
    if identity.claims.isNone then authenticationRequired identity "Authentication token required"
    else .reject ⟨.forbidden, "FORBIDDEN", "User '" ++ subject.getD "anonymous" ++
      "' does not possess required role for operation '" ++ opName ++ "'", none⟩

def verdictFor (rbac : RbacRequestInterceptor) (operationType : Option GraphQLOperationType)
    (opName : String) (identity : Identity) : InterceptorVerdict :=
  let policy := rbac.policyFor operationType
  if rbac.hasPermission policy opName identity.claims then .pass
  else withoutPermission policy opName identity

def interceptRequest (crates : JwtCrates) (rbac : RbacRequestInterceptor) (cache : TokenCache)
    (reading : ClockReading) (context : InterceptorContext) (parts : RequestParts) (_body : String) :
    (InterceptorVerdict × InterceptorContext × RequestParts) × TokenCache :=
  let opName := context.operationName.getD ""
  if rbac.unauthenticatedOps.contains opName then ((.pass, context, parts), cache)
  else
    let resolved := rbac.resolveIdentity crates cache reading parts.headers
    ((rbac.verdictFor context.operationType opName resolved.1,
      { context with claims := resolved.1.claims <|> context.claims },
      { parts with headers := injectClaims parts.headers resolved.1.claims }), resolved.2)

/-- The interceptor as a request meets it. -/
def asInterceptor (crates : JwtCrates) (rbac : RbacRequestInterceptor) (cache : TokenCache)
    (reading : ClockReading) : RequestInterceptor :=
  fun context parts body => (rbac.interceptRequest crates cache reading context parts body).1

/-- The operation asks for no authentication, or for a role that the caller has. -/
def Cleared (rbac : RbacRequestInterceptor) (claims : Option AuthClaims)
    (operationName : Option String) : Prop :=
  operationName.getD "" ∈ rbac.unauthenticatedOps ∨
    ∃ required, rbac.rolePermissions.lookup (operationName.getD "") = some required ∧
      hasRole claims required = true

/-- Without permission `DenyUnlisted` rejects, whoever the caller is. -/
theorem withoutPermission_denyUnlisted (opName : String) (identity : Identity) :
    (withoutPermission .denyUnlisted opName identity).isReject = true := by
  cases known : identity.claims with
  | none => simp [withoutPermission, known, authenticationRequired, InterceptorVerdict.isReject]
  | some claims => simp [withoutPermission, known, InterceptorVerdict.isReject]

/-- Under `DenyUnlisted` exactly the cleared operations pass. -/
theorem asInterceptor_passes_iff (crates : JwtCrates) {rbac : RbacRequestInterceptor}
    (cache : TokenCache) (reading : ClockReading) (context : InterceptorContext)
    (parts : RequestParts) (body : String)
    (strict : rbac.policyFor context.operationType = .denyUnlisted) :
    (rbac.asInterceptor crates cache reading context parts body).1.isReject = false ↔
      rbac.Cleared (rbac.resolveIdentity crates cache reading parts.headers).1.claims
        context.operationName := by
  unfold asInterceptor interceptRequest Cleared
  by_cases isOpen : context.operationName.getD "" ∈ rbac.unauthenticatedOps
  · simp [isOpen, InterceptorVerdict.isReject]
  · have unlisted : rbac.unauthenticatedOps.contains (context.operationName.getD "") = false := by
      simpa using isOpen
    simp only [unlisted, Bool.false_eq_true, if_false, isOpen, false_or, verdictFor, strict, hasPermission]
    cases rbac.rolePermissions.lookup (context.operationName.getD "") with
    | none => simp [withoutPermission_denyUnlisted]
    | some required =>
      cases permitted : hasRole (rbac.resolveIdentity crates cache reading parts.headers).1.claims
          required with
      | true => simp [permitted, InterceptorVerdict.isReject]
      | false => simp [permitted, withoutPermission_denyUnlisted]

end RbacRequestInterceptor

/-! ## Deployment -/

/-- The loop of `constant_time_eq`: all differences are collected before they are looked at. -/
def constantTimeEq (left right : Bytes) : Bool :=
  if left.length ≠ right.length then false
  else (left.zip right).foldl (fun result pair => result ||| (pair.1 ^^^ pair.2)) 0 == (0 : UInt8)

theorem or_eq_zero_iff (left right : UInt8) : left ||| right = 0 ↔ left = 0 ∧ right = 0 := by
  simp only [← UInt8.toBitVec_inj, UInt8.toBitVec_or, UInt8.toBitVec_zero, BitVec.or_eq_zero_iff]

theorem xor_eq_zero_iff (left right : UInt8) : left ^^^ right = 0 ↔ left = right := by
  simp only [← UInt8.toBitVec_inj, UInt8.toBitVec_xor, UInt8.toBitVec_zero, BitVec.xor_eq_zero_iff]

theorem constantTimeEq_iff (left right : Bytes) : constantTimeEq left right = true ↔ left = right := by
  have collected : ∀ (pairs : List (UInt8 × UInt8)) (result : UInt8),
      pairs.foldl (fun result pair => result ||| (pair.1 ^^^ pair.2)) result = 0 ↔
        result = 0 ∧ ∀ pair ∈ pairs, pair.1 = pair.2 := by
    intro pairs
    induction pairs with
    | nil => simp
    | cons pair rest inductionHypothesis =>
      intro result
      rw [List.foldl_cons, inductionHypothesis, or_eq_zero_iff, xor_eq_zero_iff]
      simp [and_assoc]
  unfold constantTimeEq
  by_cases sameLength : left.length = right.length
  · simp only [ne_eq, sameLength, not_true_eq_false, if_false, beq_iff_eq, collected, true_and]
    constructor
    · intro agree
      exact List.ext_getElem sameLength fun index inLeft inRight =>
        agree (left[index], right[index]) (by
          have inZip : index < (left.zip right).length := by simpa using ⟨inLeft, inRight⟩
          simpa using List.getElem_mem inZip)
    · rintro rfl pair member
      exact (List.mem_iff_getElem.mp member).elim fun index found => by
        obtain ⟨inZip, rfl⟩ := found
        simp
  · simp only [ne_eq, sameLength, not_false_eq_true, if_true, Bool.false_eq_true, false_iff]
    rintro rfl
    exact sameLength rfl

structure DeployAuthInterceptor where
  deployToken : Option String
  deriving DecidableEq, Repr

namespace DeployAuthInterceptor

def isDeployOp (operationName : Option String) : Bool :=
  let opName := toLowercase (operationName.getD "")
  containsText opName "deployfluxcell" || containsText opName "activatefluxcell" ||
    containsText opName "removefluxcell"

def stripPrefix (text start : String) : Option String :=
  if startsWith text start then some (String.ofList (text.toList.drop start.toList.length)) else none

/-- The token in the request: a bearer token, or else the deployment header. -/
def providedToken (headers : HeaderMap) : Option String :=
  ((headers.getStr "authorization").bind fun header =>
    stripPrefix header "Bearer " <|> stripPrefix header "bearer ") <|>
  headers.getStr "x-spectra-deploy-key"

def unauthorized (message : String) : InterceptorVerdict :=
  .reject ⟨.unauthorized, "DEPLOY_UNAUTHORIZED", message, none⟩

def notConfigured : String :=
  "Deployment authorization token is not configured on the gateway " ++
    "(set SPECTRA_DEPLOY_TOKEN or deploy_token in spectra.toml)"

/-- The verdict on an operation that deploys. -/
def checkToken (deploy : DeployAuthInterceptor) (headers : HeaderMap) : InterceptorVerdict :=
  match deploy.deployToken with
  | none => unauthorized notConfigured
  | some expected =>
    if trim expected = "" then unauthorized notConfigured
    else if (providedToken headers).any fun provided =>
        constantTimeEq (asBytes (trim provided)) (asBytes (trim expected)) then .pass
    else unauthorized "Invalid or missing deployment authorization token"

def interceptRequest (deploy : DeployAuthInterceptor) : RequestInterceptor :=
  fun context parts _ =>
    (if isDeployOp context.operationName then deploy.checkToken parts.headers else .pass, context, parts)

/-- The request brings the configured token, white space aside. -/
def Authorized (deploy : DeployAuthInterceptor) (headers : HeaderMap) : Prop :=
  ∃ expected provided, deploy.deployToken = some expected ∧ trim expected ≠ "" ∧
    providedToken headers = some provided ∧ trim provided = trim expected

/-- An operation that deploys passes exactly with the configured token. -/
theorem checkToken_passes_iff (deploy : DeployAuthInterceptor) (headers : HeaderMap) :
    (deploy.checkToken headers).isReject = false ↔ deploy.Authorized headers := by
  unfold checkToken Authorized
  cases token : deploy.deployToken with
  | none => simp [unauthorized, InterceptorVerdict.isReject]
  | some expected =>
    by_cases blank : trim expected = ""
    · simp [blank, unauthorized, InterceptorVerdict.isReject]
    · cases provided : providedToken headers with
      | none => simp [blank, unauthorized, InterceptorVerdict.isReject]
      | some brought =>
        by_cases same : trim brought = trim expected
        · simp [blank, same, (constantTimeEq_iff _ _).mpr rfl, InterceptorVerdict.isReject]
        · have differs : constantTimeEq (asBytes (trim brought)) (asBytes (trim expected)) = false := by
            rw [Bool.eq_false_iff, ne_eq, constantTimeEq_iff, asBytes_inj]
            exact same
          simp [blank, same, differs, unauthorized, InterceptorVerdict.isReject]

theorem interceptRequest_passes_iff (deploy : DeployAuthInterceptor) (context : InterceptorContext)
    (parts : RequestParts) (body : String) :
    (deploy.interceptRequest context parts body).1.isReject = false ↔
      isDeployOp context.operationName = false ∨ deploy.Authorized parts.headers := by
  unfold interceptRequest
  cases isDeployOp context.operationName with
  | true => simpa using checkToken_passes_iff deploy parts.headers
  | false => simp [InterceptorVerdict.isReject]

end DeployAuthInterceptor

end SpectraGQL.Interceptors
