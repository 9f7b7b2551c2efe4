import SpectraGQL.Interceptors.AuthRuns

/-! # Policies on mapped operations (`interceptors/auth.rs`, `PolicyMode`)

An operation with grants asks for one of its roles.  Whether a caller without one is turned
away is left to the policy, which is asked a second time and does not know of the grants.
-/

namespace SpectraGQL.Interceptors

open SpectraGQL.Http SpectraGQL.Protocol Data

namespace RbacRequestInterceptor

variable (crates : JwtCrates) (rbac : RbacRequestInterceptor) (cache : TokenCache)
  (reading : ClockReading) (context : InterceptorContext) (parts : RequestParts) (body : String)

/-- The verdict of the same interceptor under other policies. -/
def verdictUnder (mutations queries : PolicyMode) : InterceptorVerdict :=
  ((rbac.withPolicies mutations queries).asInterceptor crates cache reading context parts body).1

/-- The policy that the operation comes under. -/
def policyUnder (mutations queries : PolicyMode) : PolicyMode :=
  (rbac.withPolicies mutations queries).policyFor context.operationType

/-- A request for an operation with grants passes by a role only, and `AllowAuthenticated`
lets it pass exactly when `DenyUnlisted` does. -/
structure NeedsRole (required : List String) : Prop where
  byRole : ∀ mutations queries,
    rbac.policyUnder context mutations queries = .allowAuthenticated ∨
      rbac.policyUnder context mutations queries = .denyUnlisted →
    rbac.verdictUnder crates cache reading context parts body mutations queries = .pass →
    hasRole (rbac.resolveIdentity crates cache reading parts.headers).1.claims required = true
  agree : ∀ mutations queries mutations' queries',
    rbac.policyUnder context mutations queries = .allowAuthenticated →
    rbac.policyUnder context mutations' queries' = .denyUnlisted →
    (rbac.verdictUnder crates cache reading context parts body mutations queries = .pass ↔
      rbac.verdictUnder crates cache reading context parts body mutations' queries' = .pass)

variable {crates rbac cache reading context parts body}

/-- The identity of a caller does not depend on the policies. -/
theorem verdictUnder_of_closed {mutations queries : PolicyMode}
    (closed : context.operationName.getD "" ∉ rbac.unauthenticatedOps) :
    rbac.verdictUnder crates cache reading context parts body mutations queries =
      (rbac.withPolicies mutations queries).verdictFor context.operationType
        (context.operationName.getD "") (rbac.resolveIdentity crates cache reading parts.headers).1 := by
  have same : (rbac.withPolicies mutations queries).resolveIdentity crates cache reading parts.headers =
      rbac.resolveIdentity crates cache reading parts.headers := rfl
  have unlisted : context.operationName.getD "" ∉ (rbac.withPolicies mutations queries).unauthenticatedOps :=
    closed
  unfold verdictUnder asInterceptor
  rw [(interceptRequest_of_closed crates cache reading parts body unlisted).1, same]

/-- Under `AllowAuthenticated` whoever has claims passes, with a granted role or without. -/
theorem verdictFor_allowAuthenticated {operationType : Option GraphQLOperationType} {opName : String}
    {identity : Identity} {required : List String}
    (policy : rbac.policyFor operationType = .allowAuthenticated)
    (granted : rbac.rolePermissions.lookup opName = some required) :
    rbac.verdictFor operationType opName identity = .pass ↔ identity.claims ≠ none := by
  unfold verdictFor hasPermission
  rw [policy, granted]
  cases known : identity.claims with
  | none => simp [hasRole, withoutPermission, known, authenticationRequired]
  | some claims => cases hasRole (some claims) required <;> simp [withoutPermission, known]

/-- Mapped operations need their role exactly from the callers who have it and from those
without any claims. -/
theorem needsRole_iff {required : List String}
    (granted : rbac.rolePermissions.lookup (context.operationName.getD "") = some required)
    (closed : context.operationName.getD "" ∉ rbac.unauthenticatedOps) :
    rbac.NeedsRole crates cache reading context parts body required ↔
      (rbac.resolveIdentity crates cache reading parts.headers).1.claims = none ∨
      hasRole (rbac.resolveIdentity crates cache reading parts.headers).1.claims required = true := by
  have strict {mutations queries : PolicyMode}
      (policy : rbac.policyUnder context mutations queries = .denyUnlisted) :
      rbac.verdictUnder crates cache reading context parts body mutations queries = .pass ↔
        hasRole (rbac.resolveIdentity crates cache reading parts.headers).1.claims required = true := by
    rw [verdictUnder_of_closed closed, (verdictFor_denyUnlisted policy).1]
    constructor
    · intro permitted
      obtain ⟨roles, isGranted, held⟩ := permitted
      have same : required = roles := Option.some.inj (granted.symm.trans isGranted)
      rwa [same]
    · exact fun held => ⟨required, granted, held⟩
  have lenient {mutations queries : PolicyMode}
      (policy : rbac.policyUnder context mutations queries = .allowAuthenticated) :
      rbac.verdictUnder crates cache reading context parts body mutations queries = .pass ↔
        (rbac.resolveIdentity crates cache reading parts.headers).1.claims ≠ none := by
    rw [verdictUnder_of_closed closed]
    exact verdictFor_allowAuthenticated policy granted
  have everyType : rbac.policyUnder context .allowAuthenticated .allowAuthenticated = .allowAuthenticated := by
    unfold policyUnder policyFor
    split <;> rfl
  constructor
  · intro needed
    -- what everyone with claims may do shows who needs the role
    by_cases known : (rbac.resolveIdentity crates cache reading parts.headers).1.claims = none
    · exact .inl known
    · exact .inr (needed.byRole _ _ (.inl everyType) ((lenient everyType).mpr known))
  · intro role
    have permitted : (rbac.resolveIdentity crates cache reading parts.headers).1.claims ≠ none ↔
        hasRole (rbac.resolveIdentity crates cache reading parts.headers).1.claims required = true := by
      cases known : (rbac.resolveIdentity crates cache reading parts.headers).1.claims with
      | none => simp [hasRole]
      | some claims =>
        rw [known] at role
        simpa using role
    constructor
    · intro mutations queries policy passes
      cases policy with
      | inl allow => exact permitted.mp ((lenient allow).mp passes)
      | inr deny => exact (strict deny).mp passes
    · intro mutations queries mutations' queries' allow deny
      rw [lenient allow, strict deny, permitted]

end RbacRequestInterceptor

/-! ## A user who deletes accounts -/

theorem aliceAsks_closed : aliceNext.context.operationName.getD "" ∉ accountsRbac.unauthenticatedOps := by
  decide

theorem needsRole_iff_anonymous :
    accountsRbac.NeedsRole noCrates cacheOfOne ⟨0, 0⟩ aliceNext.context
        ⟨.post, ⟨"", "/graphql", none⟩, []⟩ "" ["admin"] ↔
      (accountsRbac.resolveIdentity noCrates cacheOfOne ⟨0, 0⟩ []).1.claims = none ∨
      RbacRequestInterceptor.hasRole
        (accountsRbac.resolveIdentity noCrates cacheOfOne ⟨0, 0⟩ []).1.claims ["admin"] = true :=
  RbacRequestInterceptor.needsRole_iff (by decide) aliceAsks_closed

/-- Alice has no role, and may delete accounts under `AllowAuthenticated`. -/
theorem unprivileged_caller_passes :
    accountsRbac.rolePermissions.lookup "deleteAccount" = some ["admin"] ∧
    accountsRbac.rolesOf aliceClaims = [] ∧
    accountsRbac.verdictUnder accountsCrates cacheOfOne aliceNext.reading aliceNext.context
      aliceNext.parts aliceNext.body .allowAuthenticated .allowAuthenticated = .pass ∧
    (accountsRbac.verdictUnder accountsCrates cacheOfOne aliceNext.reading aliceNext.context
      aliceNext.parts aliceNext.body .denyUnlisted .denyUnlisted).isReject = true := by
  have brought : bearerToken aliceNext.parts.headers = some aliceToken :=
    bearerToken_eq_some_iff.mpr (carriesBearer_bearing aliceToken_plain (compact_ne_empty _ _ _))
  have unchanged : accountsRbac.refreshed aliceNext = accountsRbac := rfl
  have verified : (accountsRbac.resolveClaimsFromToken accountsCrates cacheOfOne aliceNext.reading
      aliceToken).1 = .ok (extractClaimsFromJson aliceClaims {}) := by
    rw [← unchanged, RbacRequestInterceptor.resolveClaims_eq_ok_iff]
    refine .inr ⟨?_, aliceClaims, ⟨_, rfl, aliceToken_accepted _⟩, rfl⟩
    intro cached live
    exact absurd live.1 (by simp [cacheOfOne])
  have known : (accountsRbac.resolveIdentity accountsCrates cacheOfOne aliceNext.reading
      aliceNext.parts.headers).1.claims = some (extractClaimsFromJson aliceClaims {}) := by
    rw [(RbacRequestInterceptor.resolveIdentity_of_token brought).1, verified]
    rfl
  refine ⟨by decide, by decide, ?_, ?_⟩
  · rw [RbacRequestInterceptor.verdictUnder_of_closed aliceAsks_closed,
      RbacRequestInterceptor.verdictFor_allowAuthenticated rfl rfl, known]
    simp
  · rw [RbacRequestInterceptor.verdictUnder_of_closed aliceAsks_closed]
    apply (RbacRequestInterceptor.verdictFor_denyUnlisted rfl).2
    intro passes
    obtain ⟨required, granted, held⟩ := (RbacRequestInterceptor.verdictFor_denyUnlisted rfl).1.mp passes
    -- she has claims, but no role among them
    have without : (extractClaimsFromJson aliceClaims {}).roles = [] := by decide
    rw [known] at held
    simp [RbacRequestInterceptor.hasRole, without] at held

end SpectraGQL.Interceptors
