import SpectraGQL.Gateway.RequestFilter

/-! # Rejections of a request pipeline

`evaluations` is what a pipeline is meant to be: every interceptor sees the request as
those before it have left it, transformations included.  The loop of `intercept_request`
ends at the first rejection, and at the first transformation as well; so a rejection is lost
when a transformation comes before it (`rejection_not_lost_iff`).
-/

namespace SpectraGQL.Interceptors

open SpectraGQL.Core SpectraGQL.Http SpectraGQL.Protocol SpectraGQL.Gateway

/-- The request after a verdict: a transformation replaces headers and body. -/
def afterVerdictOf (parts : RequestParts) (body : String) : InterceptorVerdict → RequestParts × String
  | .transform headers newBody =>
    ({ parts with headers := transformHeaders parts.headers headers },
      (newBody.bind fromUtf8).getD body)
  | _ => (parts, body)

/-- The verdict of every interceptor on the request as transformed by those before it. -/
def evaluations :
    RequestInterceptorPipeline → InterceptorContext → RequestParts → String → List InterceptorVerdict
  | [], _, _, _ => []
  | interceptor :: rest, context, parts, body =>
    let evaluated := interceptor context parts body
    let request := afterVerdictOf evaluated.2.2 body evaluated.1
    evaluated.1 :: evaluations rest evaluated.2.1 request.1 request.2

/-- A transformation comes before all rejections, and there is one. -/
def Overtaken (verdicts : List InterceptorVerdict) : Prop :=
  ∃ earlier headers body later, verdicts = earlier ++ .transform headers body :: later ∧
    (∀ verdict ∈ earlier, verdict.isReject = false) ∧ ∃ verdict ∈ later, verdict.isReject = true

section Overtaken

variable {verdict : InterceptorVerdict} {rest : List InterceptorVerdict}

theorem rejects_cons_of_passes (keeps : verdict.isReject = false) :
    (∃ later ∈ verdict :: rest, later.isReject = true) ↔ ∃ later ∈ rest, later.isReject = true := by
  simp only [List.mem_cons, exists_eq_or_imp, keeps, Bool.false_eq_true, false_or]

theorem overtaken_nil : ¬ Overtaken [] := by
  rintro ⟨earlier, headers, body, later, split, -⟩
  simp at split

/-- A verdict that neither rejects nor transforms changes nothing. -/
theorem overtaken_cons_of_passes (keeps : verdict.isReject = false)
    (notTransform : ∀ headers body, verdict ≠ .transform headers body) :
    Overtaken (verdict :: rest) ↔ Overtaken rest := by
  constructor
  · rintro ⟨earlier, headers, body, later, split, none, rejects⟩
    cases earlier with
    | nil =>
      cases split
      exact absurd rfl (notTransform headers body)
    | cons first more =>
      cases split
      exact ⟨more, headers, body, later, rfl, fun v member => none v (List.mem_cons_of_mem _ member),
        rejects⟩
  · rintro ⟨earlier, headers, body, later, rfl, none, rejects⟩
    refine ⟨verdict :: earlier, headers, body, later, rfl, ?_, rejects⟩
    intro v member
    rcases List.mem_cons.mp member with rfl | inEarlier
    · exact keeps
    · exact none v inEarlier

theorem overtaken_cons_transform (headers : Option HeaderMap) (body : Option Bytes) :
    Overtaken (.transform headers body :: rest) ↔ ∃ verdict ∈ rest, verdict.isReject = true := by
  constructor
  · rintro ⟨earlier, headers', body', later, split, -, v, member, rejects⟩
    refine ⟨v, ?_, rejects⟩
    cases earlier with
    | nil =>
      cases split
      exact member
    | cons first more =>
      cases split
      exact List.mem_append_right _ (List.mem_cons_of_mem _ member)
  · intro rejects
    exact ⟨[], headers, body, rest, rfl, fun _ member => absurd member List.not_mem_nil, rejects⟩

theorem overtaken_cons_reject (rejection : InterceptorRejection) :
    ¬ Overtaken (.reject rejection :: rest) := by
  rintro ⟨earlier, headers, body, later, split, none, -⟩
  cases earlier with
  | nil => cases split
  | cons first more =>
    cases split
    exact absurd (none _ List.mem_cons_self) (by simp [InterceptorVerdict.isReject])

end Overtaken

/-- The loop of a pipeline rejects a request that one of its interceptors rejects, unless
    that is overtaken. -/
theorem interceptFrom_rejects_iff (pipeline : RequestInterceptorPipeline) (body : String)
    (audit : Option InterceptorVerdict) (context : InterceptorContext) (parts : RequestParts) :
    ((∃ verdict ∈ evaluations pipeline context parts body, verdict.isReject = true) →
      (RequestInterceptorPipeline.interceptFrom body audit pipeline context parts).1.isReject = true) ↔
    ¬ Overtaken (evaluations pipeline context parts body) := by
  -- the induction follows the loop; only a transformation ends it with rejections to come
  induction pipeline generalizing audit context parts with
  | nil =>
    refine iff_of_true ?_ overtaken_nil
    rintro ⟨verdict, member, -⟩
    exact absurd member List.not_mem_nil
  | cons interceptor rest inductionHypothesis =>
    unfold evaluations RequestInterceptorPipeline.interceptFrom
    obtain ⟨verdict, context', parts'⟩ := interceptor context parts body
    cases verdict with
    | pass =>
      rw [overtaken_cons_of_passes rfl (by simp), rejects_cons_of_passes rfl]
      exact inductionHypothesis audit context' parts'
    | audit ruleName tag reason =>
      rw [overtaken_cons_of_passes rfl (by simp), rejects_cons_of_passes rfl]
      exact inductionHypothesis (some (.audit ruleName tag reason)) context' parts'
    | reject rejection => exact iff_of_true (fun _ => rfl) (overtaken_cons_reject rejection)
    | transform headers newBody =>
      rw [overtaken_cons_transform, rejects_cons_of_passes rfl]
      have notRejected : (InterceptorVerdict.transform headers newBody).isReject = false := rfl
      simp only [notRejected, Bool.false_eq_true, imp_false]

/-- A request that one of its interceptors rejects is rejected exactly when no
    transformation comes before all rejections. -/
theorem rejection_not_lost_iff (pipeline : RequestInterceptorPipeline) (context : InterceptorContext)
    (parts : RequestParts) (body : String) :
    ((∃ verdict ∈ evaluations pipeline context parts body, verdict.isReject = true) →
      (pipeline.interceptRequest context parts body).1.isReject = true) ↔
    ¬ Overtaken (evaluations pipeline context parts body) :=
  interceptFrom_rejects_iff pipeline body none context parts

/-- An interceptor that adds a header, as a plugin may. -/
def addTenant : RequestInterceptor := fun context parts _ =>
  (.transform (some [("x-tenant", .ofString "acme")]) none, context, parts)

def rejectAll : RequestInterceptor := fun context parts _ =>
  (.reject ⟨.forbidden, "FORBIDDEN", "Forbidden", none⟩, context, parts)

def plainContext : InterceptorContext := { requestId := "", hlc := ⟨0, 0⟩ }

def plainParts : RequestParts := ⟨.post, ⟨"", "/graphql", none⟩, []⟩

/-- A rejection behind a transformation is lost. -/
theorem rejection_lost_behind_transform :
    (∃ verdict ∈ evaluations [addTenant, rejectAll] plainContext plainParts "",
      verdict.isReject = true) ∧
    (RequestInterceptorPipeline.interceptRequest [addTenant, rejectAll] plainContext plainParts
      "").1.isReject = false :=
  ⟨⟨_, List.mem_cons_of_mem _ List.mem_cons_self, rfl⟩, rfl⟩

end SpectraGQL.Interceptors
