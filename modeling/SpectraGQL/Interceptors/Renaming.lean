import SpectraGQL.Gateway.RequestFilter
import SpectraGQL.Interceptors.Auth

/-! # Authorization by the name of an operation

The operation name is the client's choice, whatever fields the operation selects.
`decisions_agree_iff` says for which two names of one operation the authorization
interceptors decide alike.
-/

namespace SpectraGQL.Interceptors

open SpectraGQL.Http SpectraGQL.Protocol SpectraGQL.Gateway Data

/-- Two operations that differ in their names at most. -/
structure SameOperation (gql gql' : GraphQLRequestInfo) : Prop where
  operationType : gql.operationType = gql'.operationType
  rootFields : gql.rootFields = gql'.rootFields

/-- The headers that say who is calling. -/
structure SameCredentials (headers headers' : HeaderMap) : Prop where
  authorization : headers.get "authorization" = headers'.get "authorization"
  deployKey : headers.get "x-spectra-deploy-key" = headers'.get "x-spectra-deploy-key"

namespace SameCredentials

variable {headers headers' : HeaderMap} (same : SameCredentials headers headers')

include same

theorem resolveIdentity (crates : JwtCrates) (rbac : RbacRequestInterceptor) (cache : TokenCache)
    (reading : ClockReading) :
    rbac.resolveIdentity crates cache reading headers =
      rbac.resolveIdentity crates cache reading headers' := by
  have token : bearerToken headers = bearerToken headers' := by
    simp only [bearerToken, HeaderMap.getStr, same.authorization]
  simp only [RbacRequestInterceptor.resolveIdentity, token]

theorem authorized_iff (deploy : DeployAuthInterceptor) :
    deploy.Authorized headers ↔ deploy.Authorized headers' := by
  have token : DeployAuthInterceptor.providedToken headers =
      DeployAuthInterceptor.providedToken headers' := by
    simp only [DeployAuthInterceptor.providedToken, HeaderMap.getStr, same.authorization, same.deployKey]
  simp only [DeployAuthInterceptor.Authorized, token]

end SameCredentials

/-- Two decisions agree when they pass alike. -/
theorem isReject_eq_iff {verdict verdict' : InterceptorVerdict} {passes passes' : Prop}
    (first : verdict.isReject = false ↔ passes) (second : verdict'.isReject = false ↔ passes') :
    verdict.isReject = verdict'.isReject ↔ (passes ↔ passes') := by
  rw [← first, ← second]
  cases verdict.isReject <;> cases verdict'.isReject <;> simp

/-- The decisions on two names of one operation by the same caller agree exactly when, for
    `RbacRequestInterceptor`, the caller is cleared for both names or for neither, and, for
    `DeployAuthInterceptor`, both names deploy, or neither does, or the caller has the token. -/
theorem decisions_agree_iff (crates : JwtCrates) (rbac : RbacRequestInterceptor) (cache : TokenCache)
    (reading : ClockReading) (deploy : DeployAuthInterceptor) (ctx ctx' : ProxyCtx)
    (info info' : RequestInfo) (gql gql' : GraphQLRequestInfo) (parts parts' : RequestParts)
    (body body' : String) (decoded : info.gql = some gql) (decoded' : info'.gql = some gql')
    (operation : SameOperation gql gql') (caller : SameCredentials parts.headers parts'.headers)
    (strict : rbac.policyFor (some gql.operationType) = .denyUnlisted) :
    ((rbac.asInterceptor crates cache reading (interceptorContext ctx info) parts body).1.isReject =
        (rbac.asInterceptor crates cache reading (interceptorContext ctx' info') parts' body').1.isReject ↔
      (rbac.Cleared (rbac.resolveIdentity crates cache reading parts.headers).1.claims
          gql.operationName ↔
        rbac.Cleared (rbac.resolveIdentity crates cache reading parts.headers).1.claims
          gql'.operationName)) ∧
    ((deploy.interceptRequest (interceptorContext ctx info) parts body).1.isReject =
        (deploy.interceptRequest (interceptorContext ctx' info') parts' body').1.isReject ↔
      (DeployAuthInterceptor.isDeployOp gql.operationName =
          DeployAuthInterceptor.isDeployOp gql'.operationName ∨ deploy.Authorized parts.headers)) := by
  have name : (interceptorContext ctx info).operationName = gql.operationName := by
    simp [interceptorContext, RequestInfo.operationName, decoded]
  have name' : (interceptorContext ctx' info').operationName = gql'.operationName := by
    simp [interceptorContext, RequestInfo.operationName, decoded']
  have type : (interceptorContext ctx info).operationType = some gql.operationType := by
    simp [interceptorContext, decoded]
  have type' : (interceptorContext ctx' info').operationType = some gql.operationType := by
    simp [interceptorContext, decoded', operation.operationType]
  constructor
  · have first := RbacRequestInterceptor.asInterceptor_passes_iff crates cache reading
      (interceptorContext ctx info) parts body (type ▸ strict)
    have second := RbacRequestInterceptor.asInterceptor_passes_iff crates cache reading
      (interceptorContext ctx' info') parts' body' (type' ▸ strict)
    rw [name] at first
    rw [name', ← caller.resolveIdentity] at second
    exact isReject_eq_iff first second
  · have first := deploy.interceptRequest_passes_iff (interceptorContext ctx info) parts body
    have second := deploy.interceptRequest_passes_iff (interceptorContext ctx' info') parts' body'
    rw [name] at first
    rw [name', ← caller.authorized_iff] at second
    rw [isReject_eq_iff first second]
    -- a caller with the token passes under every name
    by_cases authorized : deploy.Authorized parts.headers
    · simp [authorized]
    · cases DeployAuthInterceptor.isDeployOp gql.operationName <;>
        cases DeployAuthInterceptor.isDeployOp gql'.operationName <;> simp [authorized]

/-- `mutation … { deployFluxCell }` under an operation name of the client's choice. -/
def deployAs (operation : Option String) : GraphQLRequestInfo :=
  ⟨.mutation, operation, ["deployFluxCell"], none, .null, none⟩

def strictRbac : RbacRequestInterceptor :=
  (RbacRequestInterceptor.new.withPolicies .denyUnlisted .denyUnlisted).grantRole "admin"
    ["deployFluxCell"]

def anonymousCtx : ProxyCtx :=
  { requestId := "", hlc := ⟨0, 0⟩, dispatchPolicy := .none, appId := "default" }

def anonymousParts : RequestParts := ⟨.post, ⟨"", "/graphql", none⟩, []⟩

def deployInfo (operation : Option String) : RequestInfo :=
  ⟨"", ⟨0, 0⟩, anonymousParts, some (deployAs operation)⟩

theorem decisions_agree_iff_anonymous :
    strictRbac.policyFor (some .mutation) = .denyUnlisted ∧
    ((strictRbac.asInterceptor noCrates coldCache ⟨0, 0⟩
        (interceptorContext anonymousCtx (deployInfo none)) anonymousParts "").1.isReject =
      (strictRbac.asInterceptor noCrates coldCache ⟨0, 0⟩
        (interceptorContext anonymousCtx (deployInfo (some "other"))) anonymousParts "").1.isReject ↔
      (strictRbac.Cleared none none ↔ strictRbac.Cleared none (some "other"))) :=
  ⟨rfl, (decisions_agree_iff noCrates strictRbac coldCache ⟨0, 0⟩ ⟨some "s3cret"⟩ anonymousCtx
    anonymousCtx (deployInfo none) (deployInfo (some "other")) (deployAs none)
    (deployAs (some "other")) anonymousParts anonymousParts "" "" rfl rfl ⟨rfl, rfl⟩ ⟨rfl, rfl⟩ rfl).1⟩

/-- An anonymous caller deploys under the name of an introspection query: both interceptors
    reject the operation under its usual name and let it pass under that one. -/
theorem deploy_renamed_away :
    SameOperation (deployAs (some "deployFluxCell")) (deployAs (some "IntrospectionQuery")) ∧
    (strictRbac.asInterceptor noCrates coldCache ⟨0, 0⟩
      (interceptorContext anonymousCtx (deployInfo (some "deployFluxCell")))
      anonymousParts "").1.isReject = true ∧
    (strictRbac.asInterceptor noCrates coldCache ⟨0, 0⟩
      (interceptorContext anonymousCtx (deployInfo (some "IntrospectionQuery")))
      anonymousParts "").1.isReject = false ∧
    (DeployAuthInterceptor.interceptRequest ⟨some "s3cret"⟩
      (interceptorContext anonymousCtx (deployInfo (some "deployFluxCell")))
      anonymousParts "").1.isReject = true ∧
    (DeployAuthInterceptor.interceptRequest ⟨some "s3cret"⟩
      (interceptorContext anonymousCtx (deployInfo (some "IntrospectionQuery")))
      anonymousParts "").1.isReject = false :=
  ⟨⟨rfl, rfl⟩, by decide +kernel, by decide +kernel, by decide +kernel, by decide +kernel⟩

end SpectraGQL.Interceptors
