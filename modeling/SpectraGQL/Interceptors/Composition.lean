import SpectraGQL.Interceptors.Pipeline

/-! # What a pipeline says, from what its interceptors say

The interceptors of a pipeline run one after the other on what the ones before leave.  Their
verdicts determine the verdict of the pipeline (`interceptRequest_eq`, `interceptResponse_eq`), and
two response pipelines in a row run like one (`interceptResponse_composes`).
-/

namespace SpectraGQL.Interceptors

open SpectraGQL.Http

namespace InterceptorVerdict

def rejection? : InterceptorVerdict → Option InterceptorRejection
  | .reject rejection => some rejection
  | .pass | .transform _ _ | .audit _ _ _ => none

def headers? : InterceptorVerdict → Option HeaderMap
  | .transform headers _ => headers
  | .pass | .reject _ | .audit _ _ _ => none

def body? : InterceptorVerdict → Option Bytes
  | .transform _ body => body
  | .pass | .reject _ | .audit _ _ _ => none

def audit? : InterceptorVerdict → Option InterceptorVerdict
  | .audit ruleName tag reason => some (.audit ruleName tag reason)
  | .pass | .reject _ | .transform _ _ => none

/-- What the last verdict that has it has. -/
def last? {α : Type} (part : InterceptorVerdict → Option α) (verdicts : List InterceptorVerdict) : Option α :=
  verdicts.reverse.findSome? part

section

variable {α : Type} {part : InterceptorVerdict → Option α} {verdict : InterceptorVerdict}
  {verdicts others : List InterceptorVerdict}

@[simp] theorem last?_nil : last? part [] = none := rfl

theorem last?_append : last? part (verdicts ++ others) = (last? part others).or (last? part verdicts) := by
  simp [last?, List.findSome?_append]

theorem last?_cons : last? part (verdict :: verdicts) = (last? part verdicts).or (part verdict) := by
  have : last? part [verdict] = part verdict := by
    simp only [last?, List.reverse_singleton, List.findSome?_cons, List.findSome?_nil]
    cases part verdict <;> rfl
  rw [← List.singleton_append, last?_append, this]

theorem last?_eq_some {value : α} (found : last? part verdicts = some value) :
    ∃ verdict ∈ verdicts, part verdict = some value := by
  obtain ⟨verdict, member, isPart⟩ := List.exists_of_findSome?_eq_some found
  exact ⟨verdict, List.mem_reverse.mp member, isPart⟩

theorem last?_eq_none : last? part verdicts = none ↔ ∀ verdict ∈ verdicts, part verdict = none := by
  simp [last?]

end

/-- A verdict that ends a request pipeline. -/
def ending? : InterceptorVerdict → Option InterceptorVerdict
  | .reject rejection => some (.reject rejection)
  | .transform headers body => some (.transform headers body)
  | .pass | .audit _ _ _ => none

/-- The verdict of a request pipeline whose interceptors have said that. -/
def concludedRequest (verdicts : List InterceptorVerdict) : InterceptorVerdict :=
  (verdicts.findSome? ending?).getD ((last? audit? verdicts).getD .pass)

/-- The verdict of a response pipeline whose interceptors have said that. -/
def conclude (verdicts : List InterceptorVerdict) : InterceptorVerdict :=
  match verdicts.findSome? rejection? with
  | some rejection => .reject rejection
  | none =>
    if (last? body? verdicts).isSome || (last? headers? verdicts).isSome then
      .transform (last? headers? verdicts) (last? body? verdicts)
    else (last? audit? verdicts).getD .pass

end InterceptorVerdict

open InterceptorVerdict

/-! ## Requests -/

namespace RequestInterceptorPipeline

/-- What the interceptors say in turn, up to the first verdict that ends the pipeline. -/
def verdictsAlong (body : String) :
    RequestInterceptorPipeline → InterceptorContext → RequestParts → List InterceptorVerdict
  | [], _, _ => []
  | interceptor :: rest, context, parts =>
    match interceptor context parts body with
    | (.pass, context, parts) => .pass :: verdictsAlong body rest context parts
    | (.audit ruleName tag reason, context, parts) =>
      .audit ruleName tag reason :: verdictsAlong body rest context parts
    | (ended, _, _) => [ended]

theorem interceptFrom_eq {body : String} {audit : Option InterceptorVerdict}
    (pipeline : RequestInterceptorPipeline) (context : InterceptorContext) (parts : RequestParts) :
    (interceptFrom body audit pipeline context parts).1 =
      let verdicts := verdictsAlong body pipeline context parts
      (verdicts.findSome? ending?).getD (((last? audit? verdicts).or audit).getD .pass) := by
  induction pipeline generalizing audit context parts with
  | nil => simp [interceptFrom, verdictsAlong]
  | cons interceptor rest inductionHypothesis =>
    rw [interceptFrom, verdictsAlong]
    cases said : interceptor context parts body with
    | mk verdict rest =>
      cases verdict with
      | reject _ | transform _ _ => simp [ending?]
      | pass => simp [inductionHypothesis, List.findSome?_cons, ending?, last?_cons, audit?]
      | audit ruleName tag reason =>
        simp [inductionHypothesis, List.findSome?_cons, ending?, last?_cons, audit?]

/-- The verdict of a pipeline follows from what its interceptors say. -/
theorem interceptRequest_eq (pipeline : RequestInterceptorPipeline) (context : InterceptorContext)
    (parts : RequestParts) (body : String) :
    (pipeline.interceptRequest context parts body).1 =
      concludedRequest (verdictsAlong body pipeline context parts) := by
  rw [interceptRequest, interceptFrom_eq]
  simp [concludedRequest]

end RequestInterceptorPipeline

/-! ## Responses -/

namespace ResponseInterceptorPipeline

/-- What the interceptors of a pipeline have said, and the head and the body that they leave. -/
structure Run where
  verdicts : List InterceptorVerdict
  parts : ResponseHeader
  body : Bytes

/-- The interceptors run in turn, up to the first that rejects. -/
def runAlong (context : InterceptorContext) : ResponseInterceptorPipeline → ResponseHeader → Bytes → Run
  | [], parts, body => ⟨[], parts, body⟩
  | interceptor :: rest, parts, body =>
    match interceptor context parts body with
    | (.reject rejection, parts) => ⟨[.reject rejection], parts, body⟩
    | (verdict, parts) =>
      let later := runAlong context rest parts ((body? verdict).getD body)
      { later with verdicts := verdict :: later.verdicts }

/-- What the pipeline has accumulated, with what some more interceptors say. -/
def Progress.extend (progress : Progress) (verdicts : List InterceptorVerdict) : Progress where
  body := (last? body? verdicts).or progress.body
  headers := (last? headers? verdicts).or progress.headers
  audit := (last? audit? verdicts).or progress.audit

variable {context : InterceptorContext} {parts : ResponseHeader} {body : Bytes} {progress : Progress}
  {verdict : InterceptorVerdict} {verdicts : List InterceptorVerdict} {rejection : InterceptorRejection}

theorem Progress.extend_nil : progress.extend [] = progress := by simp [Progress.extend]

theorem Progress.extend_cons :
    progress.extend (verdict :: verdicts) = (progress.extend [verdict]).extend verdicts := by
  simp [Progress.extend, last?_cons, Option.or_assoc]

/-- The loop of a pipeline, from what its interceptors say. -/
theorem interceptFrom_eq (pipeline : ResponseInterceptorPipeline) :
    interceptFrom context body progress pipeline parts =
      let run := runAlong context pipeline parts (progress.body.getD body)
      (match run.verdicts.findSome? rejection? with
        | some rejection => .reject rejection
        | none => (progress.extend run.verdicts).verdict,
      run.parts) := by
  induction pipeline generalizing progress parts with
  | nil => simp [interceptFrom, runAlong, Progress.extend_nil]
  | cons interceptor rest inductionHypothesis =>
    rw [interceptFrom, runAlong]
    cases said : interceptor context parts (progress.body.getD body) with
    | mk verdict parts =>
      cases verdict with
      | reject rejection => simp [rejection?]
      | pass =>
        have noted : progress.extend [.pass] = progress := by
          simp [Progress.extend, last?_cons, body?, headers?, audit?]
        simp only [inductionHypothesis, List.findSome?_cons, rejection?, body?, Option.getD_none]
        rw [Progress.extend_cons, noted]
      | transform headers newBody =>
        have noted : progress.extend [.transform headers newBody] =
            { progress with headers := headers <|> progress.headers, body := newBody <|> progress.body } := by
          simp [Progress.extend, last?_cons, body?, headers?, audit?]
        -- the next interceptor sees the body as it is by then
        have afterwards : (newBody <|> progress.body).getD body = newBody.getD (progress.body.getD body) := by
          cases newBody <;> rfl
        simp only [inductionHypothesis, List.findSome?_cons, rejection?, body?, afterwards]
        rw [Progress.extend_cons, noted]
      | audit ruleName tag reason =>
        have noted : progress.extend [.audit ruleName tag reason] =
            { progress with audit := some (.audit ruleName tag reason) } := by
          simp [Progress.extend, last?_cons, body?, headers?, audit?]
        simp only [inductionHypothesis, List.findSome?_cons, rejection?, body?, Option.getD_none]
        rw [Progress.extend_cons, noted]

/-- The verdict of a pipeline follows from what its interceptors say. -/
theorem interceptResponse_eq (pipeline : ResponseInterceptorPipeline) :
    pipeline.interceptResponse context parts body =
      (conclude (runAlong context pipeline parts body).verdicts, (runAlong context pipeline parts body).parts) := by
  rw [interceptResponse, interceptFrom_eq]
  simp [conclude, Progress.extend, Progress.verdict]

theorem runAlong_append_of_rejection (first second : ResponseInterceptorPipeline)
    (rejects : (runAlong context first parts body).verdicts.findSome? rejection? = some rejection) :
    runAlong context (first ++ second) parts body = runAlong context first parts body := by
  induction first generalizing parts body with
  | nil => simp [runAlong] at rejects
  | cons interceptor rest inductionHypothesis =>
    simp only [List.cons_append, runAlong] at rejects ⊢
    cases said : interceptor context parts body with
    | mk verdict parts =>
      simp only [said] at rejects ⊢
      cases verdict with
      | reject rejection => rfl
      | pass | transform _ _ | audit _ _ _ => simp only [inductionHypothesis rejects]

/-- Without a rejection the second pipeline runs on what the first leaves. -/
theorem runAlong_append (first second : ResponseInterceptorPipeline)
    (accepts : (runAlong context first parts body).verdicts.findSome? rejection? = none) :
    runAlong context (first ++ second) parts body =
      let before := runAlong context first parts body
      let after := runAlong context second before.parts before.body
      { after with verdicts := before.verdicts ++ after.verdicts } := by
  induction first generalizing parts body with
  | nil => rfl
  | cons interceptor rest inductionHypothesis =>
    simp only [List.cons_append, runAlong] at accepts ⊢
    cases said : interceptor context parts body with
    | mk verdict parts =>
      simp only [said] at accepts ⊢
      cases verdict with
      | reject rejection => cases accepts
      | pass | transform _ _ | audit _ _ _ => simp only [inductionHypothesis accepts, List.cons_append]

/-- Two pipelines in a row: a rejection of the first, or else of the second on what the first
    leaves; or else the last headers and the last body, or else the last audit. -/
def composed (first second : ResponseInterceptorPipeline) (context : InterceptorContext)
    (parts : ResponseHeader) (body : Bytes) : InterceptorVerdict :=
  let before := runAlong context first parts body
  let after := runAlong context second before.parts before.body
  match before.verdicts.findSome? rejection? with
  | some rejection => .reject rejection
  | none =>
    match after.verdicts.findSome? rejection? with
    | some rejection => .reject rejection
    | none =>
      let headers := (last? headers? after.verdicts).or (last? headers? before.verdicts)
      let newBody := (last? body? after.verdicts).or (last? body? before.verdicts)
      if newBody.isSome || headers.isSome then .transform headers newBody
      else ((last? audit? after.verdicts).or (last? audit? before.verdicts)).getD .pass

theorem interceptResponse_append (first second : ResponseInterceptorPipeline) :
    ((first ++ second).interceptResponse context parts body).1 = composed first second context parts body := by
  simp only [interceptResponse_eq, composed]
  cases rejects : (runAlong context first parts body).verdicts.findSome? rejection? with
  | some rejection => rw [runAlong_append_of_rejection first second rejects, conclude, rejects]
  | none =>
    rw [runAlong_append first second rejects]
    simp only [conclude, List.findSome?_append, rejects, Option.none_or, last?_append]

/-- Two pipelines in a row compose, and so do the global pipeline and that of a route. -/
theorem interceptResponse_composes :
    (∀ (first second : ResponseInterceptorPipeline) (context : InterceptorContext) (parts : ResponseHeader)
      (body : Bytes),
      ((first ++ second).interceptResponse context parts body).1 = composed first second context parts body) ∧
    ∀ (manager : InterceptorManager) (operation : Option String) (context : InterceptorContext)
      (parts : ResponseHeader) (body : Bytes),
      ((manager.getResponsePipeline operation).interceptResponse context parts body).1 =
        composed manager.globalResponsePipeline
          ((operation.bind fun name => manager.routeResponsePipelines.lookup name).getD []) context parts body :=
  ⟨fun first second _ _ _ => interceptResponse_append first second,
    fun manager _ _ _ _ => interceptResponse_append manager.globalResponsePipeline _⟩

end ResponseInterceptorPipeline

end SpectraGQL.Interceptors
