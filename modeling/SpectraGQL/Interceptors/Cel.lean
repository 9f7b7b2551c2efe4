import SpectraGQL.Interceptors.Instantiation

/-! # Expressions over a response (`interceptors/evaluators/cel.rs`)

A CEL expression sees the head of a response and the context of the gateway under fixed names,
and the members of the body under their own.  All of them are variables of one context, and what
is added last counts.  So an upstream can set `status` or `headers` by naming a member of its
body so (`sees_gateway_iff`).
-/

namespace SpectraGQL.Interceptors

open SpectraGQL.Core SpectraGQL.Http SpectraGQL.Protocol

/-! ## Values -/

/-- `cel::Value`.  A float is kept as the text it is printed with, and a map in the order of its
    keys, so that equal values are equal. -/
inductive CelValue where
  | null
  | bool (value : Bool)
  | int (value : Int)
  | uint (value : Nat)
  | float (text : String)
  | string (text : String)
  | list (items : List CelValue)
  | map (entries : List (String × CelValue))

namespace CelValue

/-- `HashMap::insert`. -/
def insertEntry (key : String) (value : CelValue) :
    List (String × CelValue) → List (String × CelValue)
  | [] => [(key, value)]
  | (other, kept) :: rest =>
    if key < other then (key, value) :: (other, kept) :: rest
    else if key = other then (key, value) :: rest
    else (other, kept) :: insertEntry key value rest

end CelValue

def numberToCel (number : Json) (text : String) : CelValue :=
  match number.asI64 with
  | some value => .int value
  | none =>
    match number.asU64 with
    | some value => .uint value
    | none => .float text

mutual

def jsonToCel : Json → CelValue
  | .null => .null
  | .bool value => .bool value
  | .number text => numberToCel (.number text) text
  | .string text => .string text
  | .array items => .list (itemsToCel items)
  | .object members => .map (membersToCel [] members)

def itemsToCel : List Json → List CelValue
  | [] => []
  | item :: items => jsonToCel item :: itemsToCel items

/-- The entries of a map after the members have been inserted. -/
def membersToCel (entries : List (String × CelValue)) :
    List (String × Json) → List (String × CelValue)
  | [] => entries
  | (name, value) :: members =>
    membersToCel (CelValue.insertEntry name (jsonToCel value) entries) members

end

/-! ## Contexts -/

/-- The variables of a `cel::Context`, the latest first. -/
abbrev CelContext := List (String × CelValue)

namespace CelContext

def addVariable (name : String) (value : CelValue) (context : CelContext) : CelContext :=
  (name, value) :: context

/-- What an expression finds under a name. -/
def find (context : CelContext) (name : String) : Option CelValue := context.lookup name

end CelContext

/-- The headers that are text, the last of each name. -/
def headersToCel (headers : HeaderMap) : CelValue :=
  .map (headers.foldl (fun entries header =>
    match HeaderValue.toStr header.2 with
    | some text => CelValue.insertEntry header.1 (.string text) entries
    | none => entries) [])

/-- The variables of the gateway. -/
def gatewayVariables (context : InterceptorContext) (parts : ResponseHeader) : CelContext :=
  let celCtx := CelContext.addVariable "status" (.uint parts.status.code.toNat) []
  let celCtx := celCtx.addVariable "duration_ms" (.uint context.durationMs)
  let celCtx := celCtx.addVariable "request_id" (.string context.requestId)
  let celCtx := celCtx.addVariable "operation_name"
    ((context.operationName.map CelValue.string).getD .null)
  celCtx.addVariable "headers" (headersToCel parts.headers)

/-- The members of a body become variables, one after the other. -/
def addMembers (celCtx : CelContext) (members : List (String × Json)) : CelContext :=
  members.foldl (fun celCtx member => celCtx.addVariable member.1 (jsonToCel member.2)) celCtx

/-- The variables of a response; `fromStr` is `serde_json::from_str::<Value>`. -/
def responseVariables (fromStr : String → Option Json) (context : InterceptorContext)
    (parts : ResponseHeader) (body : Bytes) : CelContext :=
  let celCtx := gatewayVariables context parts
  match fromUtf8 body with
  | none => celCtx
  | some bodyStr =>
    let celCtx := celCtx.addVariable "body" (.string bodyStr)
    let celCtx := celCtx.addVariable "raw_body" (.string bodyStr)
    match fromStr bodyStr with
    | some jsonVal =>
      let celCtx :=
        match jsonVal with
        | .object members => addMembers celCtx members
        | _ => celCtx
      celCtx.addVariable "response" (jsonToCel jsonVal)
    | none => celCtx.addVariable "response" (.string bodyStr)

/-! ## The interceptor -/

/-- The crates behind an expression. -/
structure CelCrates where
  fromStr : String → Option Json
  /-- How `{:?}` prints a value. -/
  debug : CelValue → String

/-- A program is `Program::execute` on what it finds under each name; an error is the text that
    `{:?}` prints. -/
abbrev CelResponseInterceptor := CelRule ((String → Option CelValue) → Except String CelValue)

namespace CelResponseInterceptor

/-- What the expression finds under a name. -/
def sees (crates : CelCrates) (context : InterceptorContext) (parts : ResponseHeader)
    (body : Bytes) (name : String) : Option CelValue :=
  (responseVariables crates.fromStr context parts body).find name

def interceptResponse (crates : CelCrates) (interceptor : CelResponseInterceptor)
    (context : InterceptorContext) (parts : ResponseHeader) (body : Bytes) : InterceptorVerdict :=
  let reject (message : String) : InterceptorVerdict :=
    .reject ⟨interceptor.statusCode, interceptor.rejectionCode, message, none⟩
  let evalResult := interceptor.program (sees crates context parts body)
  match interceptor.action with
  | .reject =>
    match evalResult with
    | .ok (.bool true) => .pass
    | .ok (.bool false) => reject interceptor.rejectionMessage
    | .ok other => reject ("CEL expression returned non-boolean: " ++ crates.debug other)
    | .error e => reject ("CEL evaluation error: " ++ e)
  | .audit =>
    match evalResult with
    | .ok (.bool true) => .audit interceptor.name interceptor.tag interceptor.rejectionMessage
    | .ok (.bool false) | .ok _ | .error _ => .pass

end CelResponseInterceptor

/-! ## What a body can set -/

/-- The names under which the gateway speaks. -/
def gatewayNames : List String := ["status", "duration_ms", "request_id", "operation_name", "headers"]

/-- The member of a body under a name, when the body is a JSON object; of several, the last. -/
def bodyMember (fromStr : String → Option Json) (body : Bytes) (name : String) : Option Json :=
  match (fromUtf8 body).bind fromStr with
  | some (.object members) => members.reverse.lookup name
  | _ => none

/-- No member of the body that has a name of the gateway has another value than the gateway's. -/
def Unforged (fromStr : String → Option Json) (context : InterceptorContext)
    (parts : ResponseHeader) (body : Bytes) : Prop :=
  ∀ name ∈ gatewayNames, ∀ value, bodyMember fromStr body name = some value →
    (gatewayVariables context parts).find name = some (jsonToCel value)

section Sees

variable {celCtx : CelContext} {name other : String} {value : CelValue}

@[simp] theorem find_addVariable_of_ne (different : name ≠ other) :
    (celCtx.addVariable other value).find name = celCtx.find name := by
  simp [CelContext.addVariable, CelContext.find, List.lookup_cons, beq_eq_false_iff_ne.mpr different]

@[simp] theorem find_addVariable_self :
    (celCtx.addVariable name value).find name = some value := by
  simp [CelContext.addVariable, CelContext.find]

/-- The last member of a name counts, and if there is none, what was there before. -/
theorem find_addMembers (members : List (String × Json)) (name : String) :
    (addMembers celCtx members).find name =
      ((members.reverse.lookup name).map jsonToCel <|> celCtx.find name) := by
  induction members using List.reverseRecOn with
  | nil => rfl
  | append_singleton earlier member inductionHypothesis =>
    obtain ⟨key, held⟩ := member
    rw [addMembers, List.foldl_concat, ← addMembers, List.reverse_append]
    by_cases same : name = key
    · subst same
      rw [find_addVariable_self]
      simp
    · rw [find_addVariable_of_ne same, inductionHypothesis]
      simp [List.lookup_cons, beq_eq_false_iff_ne.mpr same]

theorem ne_of_mem_gatewayNames (isGateway : name ∈ gatewayNames) :
    name ≠ "body" ∧ name ≠ "raw_body" ∧ name ≠ "response" := by
  have all : ∀ name ∈ gatewayNames, name ≠ "body" ∧ name ≠ "raw_body" ∧ name ≠ "response" := by
    decide
  exact all name isGateway

/-- An expression finds the member of the body, and what the gateway says only if there is
    none. -/
theorem sees_eq (crates : CelCrates) (context : InterceptorContext) (parts : ResponseHeader)
    (body : Bytes) (isGateway : name ∈ gatewayNames) :
    CelResponseInterceptor.sees crates context parts body name =
      ((bodyMember crates.fromStr body name).map jsonToCel <|>
        (gatewayVariables context parts).find name) := by
  obtain ⟨notBody, notRaw, notResponse⟩ := ne_of_mem_gatewayNames isGateway
  unfold CelResponseInterceptor.sees responseVariables bodyMember
  cases fromUtf8 body with
  | none => simp
  | some bodyStr =>
    simp only [Option.bind_some]
    cases crates.fromStr bodyStr with
    | none => simp [notBody, notRaw, notResponse]
    | some jsonVal =>
      cases jsonVal with
      | object members =>
        simp only [find_addVariable_of_ne notResponse, find_addMembers, find_addVariable_of_ne notRaw,
          find_addVariable_of_ne notBody]
      | null | bool _ | number _ | string _ | array _ => simp [notBody, notRaw, notResponse]

/-- Every name of the gateway is set. -/
theorem find_gatewayVariables_isSome (context : InterceptorContext) (parts : ResponseHeader)
    (isGateway : name ∈ gatewayNames) :
    ((gatewayVariables context parts).find name).isSome = true := by
  simp only [gatewayNames, List.mem_cons, List.not_mem_nil, or_false] at isGateway
  rcases isGateway with rfl | rfl | rfl | rfl | rfl <;> rfl

/-- The gateway is heard exactly if the body is not forged. -/
theorem sees_unforged_iff (crates : CelCrates) (context : InterceptorContext)
    (parts : ResponseHeader) (body : Bytes) :
    (∀ name ∈ gatewayNames, CelResponseInterceptor.sees crates context parts body name =
        (gatewayVariables context parts).find name) ↔
      Unforged crates.fromStr context parts body := by
  refine forall_congr' fun name => forall_congr' fun isGateway => ?_
  rw [sees_eq crates context parts body isGateway]
  cases bodyMember crates.fromStr body name with
  | none => simp
  | some value => simp [eq_comm]

end Sees

/-- An expression finds the same under the names of the gateway whatever of two bodies it is
    given, namely what the gateway says, exactly if neither body has a member of such a name and
    another value.  An expression that reads no other name then has the same verdict. -/
theorem sees_gateway_iff (crates : CelCrates) (context : InterceptorContext)
    (parts : ResponseHeader) (left right : Bytes) :
    ((∀ name ∈ gatewayNames,
        CelResponseInterceptor.sees crates context parts left name =
          CelResponseInterceptor.sees crates context parts right name ∧
        CelResponseInterceptor.sees crates context parts left name =
          (gatewayVariables context parts).find name) ↔
      Unforged crates.fromStr context parts left ∧ Unforged crates.fromStr context parts right) ∧
    (Unforged crates.fromStr context parts left → Unforged crates.fromStr context parts right →
      ∀ interceptor : CelResponseInterceptor,
        (∀ first second : String → Option CelValue, (∀ name ∈ gatewayNames, first name = second name) →
          interceptor.program first = interceptor.program second) →
        interceptor.interceptResponse crates context parts left =
          interceptor.interceptResponse crates context parts right) := by
  rw [← sees_unforged_iff, ← sees_unforged_iff]
  constructor
  · constructor
    · intro same
      exact ⟨fun name isGateway => (same name isGateway).2,
        fun name isGateway => (same name isGateway).1.symm.trans (same name isGateway).2⟩
    · rintro ⟨ofLeft, ofRight⟩ name isGateway
      exact ⟨(ofLeft name isGateway).trans (ofRight name isGateway).symm, ofLeft name isGateway⟩
  · intro ofLeft ofRight interceptor readsOnly
    have same := readsOnly (CelResponseInterceptor.sees crates context parts left)
      (CelResponseInterceptor.sees crates context parts right)
      fun name isGateway => (ofLeft name isGateway).trans (ofRight name isGateway).symm
    simp only [CelResponseInterceptor.interceptResponse, same]

/-! ## A forged status -/

/-- The body of a failing upstream that wants to look well. -/
def forgedBody : Bytes := asBytes "\x7b\"status\":200\x7d"

/-- Crates that read this one text. -/
def forgedCrates : CelCrates :=
  ⟨fun text => if text = "\x7b\"status\":200\x7d" then some (.object [("status", .number "200")])
    else none, fun _ => ""⟩

theorem badGateway_valid : (100 : UInt16) ≤ 502 ∧ (502 : UInt16) < 1000 := by decide

/-- A response with the status 502 is seen with the status that its body names. -/
theorem status_forged : ¬ ∀ name ∈ gatewayNames,
    CelResponseInterceptor.sees forgedCrates ⟨"", ⟨0, 0⟩, none, none, none, [], [], 0, none⟩
        ⟨⟨502, badGateway_valid⟩, []⟩ forgedBody name =
      CelResponseInterceptor.sees forgedCrates ⟨"", ⟨0, 0⟩, none, none, none, [], [], 0, none⟩
        ⟨⟨502, badGateway_valid⟩, []⟩ [] name := by
  intro same
  have status := same "status" (by decide)
  have forged : bodyMember forgedCrates.fromStr forgedBody "status" = some (.number "200") := by
    simp [bodyMember, forgedBody, forgedCrates]
  have plain : bodyMember forgedCrates.fromStr [] "status" = none := by
    rw [bodyMember, show fromUtf8 [] = some "" from fromUtf8_asBytes ""]
    simp [forgedCrates]
  rw [sees_eq _ _ _ _ (by decide), sees_eq _ _ _ _ (by decide), forged, plain] at status
  have asInt : (Json.number "200").asI64 = some 200 := by decide
  simp [jsonToCel, numberToCel, asInt, gatewayVariables, CelContext.find, CelContext.addVariable,
    List.lookup_cons] at status

end SpectraGQL.Interceptors
