import SpectraGQL.Interceptors.Sanitizer
import Mathlib.Data.List.Forall2

/-! # Which secrets the sanitizer hides

Two values are alike when they differ under sensitive keys only.  Sanitizing makes alike values
equal exactly when they are masked alike: every secret in which they differ is at most 64
levels deep and not within a member called `query`, and a bearer token on both sides or on
neither.
-/

namespace SpectraGQL.Interceptors

open SpectraGQL.Http SpectraGQL.Protocol

namespace Sanitizer

/-! ## JSON values -/

mutual

inductive Alike (sanitizer : Sanitizer) : Json → Json → Prop where
  | same (value : Json) : Alike sanitizer value value
  | array {left right : List Json} (items : AlikeItems sanitizer left right) :
      Alike sanitizer (.array left) (.array right)
  | object {left right : List (String × Json)} (members : AlikeMembers sanitizer left right) :
      Alike sanitizer (.object left) (.object right)

inductive AlikeItems (sanitizer : Sanitizer) : List Json → List Json → Prop where
  | nil : AlikeItems sanitizer [] []
  | cons {left right : Json} {lefts rights : List Json} (item : Alike sanitizer left right)
      (items : AlikeItems sanitizer lefts rights) :
      AlikeItems sanitizer (left :: lefts) (right :: rights)

inductive AlikeMembers (sanitizer : Sanitizer) :
    List (String × Json) → List (String × Json) → Prop where
  | nil : AlikeMembers sanitizer [] []
  | secret {name : String} {left right : Json} {lefts rights : List (String × Json)}
      (isSensitive : sanitizer.isSensitiveKey name = true)
      (members : AlikeMembers sanitizer lefts rights) :
      AlikeMembers sanitizer ((name, left) :: lefts) ((name, right) :: rights)
  | cons {name : String} {left right : Json} {lefts rights : List (String × Json)}
      (value : Alike sanitizer left right) (members : AlikeMembers sanitizer lefts rights) :
      AlikeMembers sanitizer ((name, left) :: lefts) ((name, right) :: rights)

end

/-- A text that is masked as a bearer token. -/
def isBearerValue : Json → Bool
  | .string text => isBearer text
  | .null => false
  | .bool _ => false
  | .number _ => false
  | .array _ => false
  | .object _ => false

mutual

/-- Values that the sanitizer makes equal, found at a depth. -/
inductive Masked (sanitizer : Sanitizer) : Nat → Json → Json → Prop where
  | same (depth : Nat) (value : Json) : Masked sanitizer depth value value
  | array {depth : Nat} {left right : List Json} (shallow : depth ≤ 64)
      (items : MaskedItems sanitizer (depth + 1) left right) :
      Masked sanitizer depth (.array left) (.array right)
  | object {depth : Nat} {left right : List (String × Json)} (shallow : depth ≤ 64)
      (members : MaskedMembers sanitizer (depth + 1) left right) :
      Masked sanitizer depth (.object left) (.object right)

inductive MaskedItems (sanitizer : Sanitizer) : Nat → List Json → List Json → Prop where
  | nil (depth : Nat) : MaskedItems sanitizer depth [] []
  | cons {depth : Nat} {left right : Json} {lefts rights : List Json}
      (item : Masked sanitizer depth left right) (items : MaskedItems sanitizer depth lefts rights) :
      MaskedItems sanitizer depth (left :: lefts) (right :: rights)

inductive MaskedMembers (sanitizer : Sanitizer) :
    Nat → List (String × Json) → List (String × Json) → Prop where
  | nil (depth : Nat) : MaskedMembers sanitizer depth [] []
  | secret {depth : Nat} {name : String} {left right : Json} {lefts rights : List (String × Json)}
      (isSensitive : sanitizer.isSensitiveKey name = true)
      (sameKind : isBearerValue left = isBearerValue right)
      (members : MaskedMembers sanitizer depth lefts rights) :
      MaskedMembers sanitizer depth ((name, left) :: lefts) ((name, right) :: rights)
  | query {depth : Nat} {name : String} (value : Json) {lefts rights : List (String × Json)}
      (members : MaskedMembers sanitizer depth lefts rights) :
      MaskedMembers sanitizer depth ((name, value) :: lefts) ((name, value) :: rights)
  | cons {depth : Nat} {name : String} {left right : Json} {lefts rights : List (String × Json)}
      (notSensitive : sanitizer.isSensitiveKey name = false) (notQuery : isQueryKey name = false)
      (value : Masked sanitizer depth left right)
      (members : MaskedMembers sanitizer depth lefts rights) :
      MaskedMembers sanitizer depth ((name, left) :: lefts) ((name, right) :: rights)

end

variable {sanitizer : Sanitizer} {patterns : Patterns}

theorem maskValue_eq (value : Json) :
    maskValue value = .string (if isBearerValue value then redactedBearer else redactedPlaceholder) := by
  cases value <;> rfl

theorem placeholders_differ : redactedBearer ≠ redactedPlaceholder := by decide

/-- The placeholder says whether a secret was a bearer token, and no more. -/
theorem maskValue_eq_iff (left right : Json) :
    maskValue left = maskValue right ↔ isBearerValue left = isBearerValue right := by
  rw [maskValue_eq, maskValue_eq]
  cases isBearerValue left <;> cases isBearerValue right <;>
    simp [placeholders_differ, Ne.symm placeholders_differ]

mutual

theorem Masked.sanitized {depth : Nat} {left right : Json} (masked : Masked sanitizer depth left right) :
    sanitizer.sanitizeValueDepth patterns depth left =
      sanitizer.sanitizeValueDepth patterns depth right := by
  cases masked with
  | same => rfl
  | array shallow items =>
    simp only [sanitizeValueDepth, Nat.not_lt.mpr shallow, if_false, items.sanitized]
  | object shallow members =>
    simp only [sanitizeValueDepth, Nat.not_lt.mpr shallow, if_false, members.sanitized]

theorem MaskedItems.sanitized {depth : Nat} {left right : List Json}
    (masked : MaskedItems sanitizer depth left right) :
    sanitizer.sanitizeItems patterns depth left = sanitizer.sanitizeItems patterns depth right := by
  cases masked with
  | nil => rfl
  | cons item items => simp only [sanitizeItems, item.sanitized, items.sanitized]

theorem MaskedMembers.sanitized {depth : Nat} {left right : List (String × Json)}
    (masked : MaskedMembers sanitizer depth left right) :
    sanitizer.sanitizeMembers patterns depth left = sanitizer.sanitizeMembers patterns depth right := by
  cases masked with
  | nil => rfl
  | secret isSensitive sameKind members =>
    simp only [sanitizeMembers, isSensitive, if_true, (maskValue_eq_iff _ _).mpr sameKind,
      members.sanitized]
  | query value members => simp only [sanitizeMembers, members.sanitized]
  | cons notSensitive notQuery value members =>
    simp only [sanitizeMembers, notSensitive, notQuery, Bool.false_eq_true, if_false, value.sanitized,
      members.sanitized]

end

/-- Alike query texts are the same, and nothing else is looked into. -/
theorem Alike.eq_of_sanitizeQuery {left right : Json} (alike : Alike sanitizer left right)
    (equal : sanitizeQuery patterns left = sanitizeQuery patterns right) : left = right := by
  cases alike with
  | same => rfl
  | array _ => exact equal
  | object _ => exact equal

mutual

theorem Alike.masked {depth : Nat} {left right : Json} (alike : Alike sanitizer left right)
    (equal : sanitizer.sanitizeValueDepth patterns depth left =
      sanitizer.sanitizeValueDepth patterns depth right) : Masked sanitizer depth left right := by
  by_cases deep : depth > 64
  · -- below 64 levels a value stays as it is
    cases alike with
    | same => exact .same _ _
    | array _ | object _ =>
      simp only [sanitizeValueDepth, deep, if_true] at equal
      exact equal ▸ .same _ _
  · cases alike with
    | same => exact .same _ _
    | array items =>
      simp only [sanitizeValueDepth, deep, if_false, Json.array.injEq] at equal
      exact .array (Nat.not_lt.mp deep) (items.masked equal)
    | object members =>
      simp only [sanitizeValueDepth, deep, if_false, Json.object.injEq] at equal
      exact .object (Nat.not_lt.mp deep) (members.masked equal)

theorem AlikeItems.masked {depth : Nat} {left right : List Json}
    (alike : AlikeItems sanitizer left right)
    (equal : sanitizer.sanitizeItems patterns depth left = sanitizer.sanitizeItems patterns depth right) :
    MaskedItems sanitizer depth left right := by
  cases alike with
  | nil => exact .nil depth
  | cons item items =>
    simp only [sanitizeItems, List.cons.injEq] at equal
    exact .cons (item.masked equal.1) (items.masked equal.2)

theorem AlikeMembers.masked {depth : Nat} {left right : List (String × Json)}
    (alike : AlikeMembers sanitizer left right)
    (equal : sanitizer.sanitizeMembers patterns depth left =
      sanitizer.sanitizeMembers patterns depth right) : MaskedMembers sanitizer depth left right := by
  cases alike with
  | nil => exact .nil depth
  | secret isSensitive members =>
    simp only [sanitizeMembers, isSensitive, if_true, List.cons.injEq, Prod.mk.injEq, true_and] at equal
    exact .secret isSensitive ((maskValue_eq_iff _ _).mp equal.1) (members.masked equal.2)
  | @cons name _ _ _ _ value members =>
    simp only [sanitizeMembers, List.cons.injEq, Prod.mk.injEq, true_and] at equal
    cases isSensitive : sanitizer.isSensitiveKey name with
    | true =>
      simp only [isSensitive, if_true] at equal
      exact .secret isSensitive ((maskValue_eq_iff _ _).mp equal.1) (members.masked equal.2)
    | false =>
      cases isQuery : isQueryKey name with
      | true =>
        simp only [isSensitive, isQuery, Bool.false_eq_true, if_false, if_true] at equal
        obtain rfl := value.eq_of_sanitizeQuery equal.1
        exact .query _ (members.masked equal.2)
      | false =>
        simp only [isSensitive, isQuery, Bool.false_eq_true, if_false] at equal
        exact .cons isSensitive isQuery (value.masked equal.1) (members.masked equal.2)

end

/-- Of alike values, the sanitizer hides the difference exactly when they are masked alike. -/
theorem Alike.sanitized_iff {left right : Json} (alike : Alike sanitizer left right) (depth : Nat) :
    sanitizer.sanitizeValueDepth patterns depth left =
        sanitizer.sanitizeValueDepth patterns depth right ↔ Masked sanitizer depth left right :=
  ⟨alike.masked, fun masked => masked.sanitized⟩

/-! ### Members of alike objects -/

theorem AlikeMembers.lookup {left right : List (String × Json)}
    (alike : AlikeMembers sanitizer left right) {name : String}
    (notSensitive : sanitizer.isSensitiveKey name = false) :
    Option.Rel (Alike sanitizer) (left.lookup name) (right.lookup name) := by
  cases alike with
  | nil => exact .none
  | @secret other _ _ _ _ isSensitive members =>
    have different : (name == other) = false := by
      rw [beq_eq_false_iff_ne]
      rintro rfl
      simp [notSensitive] at isSensitive
    simp only [List.lookup_cons, different]
    exact members.lookup notSensitive
  | @cons other _ _ _ _ value members =>
    cases same : name == other with
    | true =>
      simp only [List.lookup_cons, same]
      exact .some value
    | false =>
      simp only [List.lookup_cons, same]
      exact members.lookup notSensitive

theorem Alike.get {left right : Json} (alike : Alike sanitizer left right) {name : String}
    (notSensitive : sanitizer.isSensitiveKey name = false) :
    Option.Rel (Alike sanitizer) (left.get name) (right.get name) := by
  cases alike with
  | same =>
    cases left.get name with
    | none => exact .none
    | some found => exact .some (.same found)
  | array _ => exact .none
  | object members => exact members.lookup notSensitive

theorem Alike.asStr_eq {left right : Json} (alike : Alike sanitizer left right) :
    left.asStr = right.asStr := by
  cases alike <;> rfl

/-- A text under a key that is not sensitive. -/
theorem Alike.text_eq {left right : Json} (alike : Alike sanitizer left right) {name : String}
    (notSensitive : sanitizer.isSensitiveKey name = false) :
    (left.get name).bind Json.asStr = (right.get name).bind Json.asStr := by
  have found := alike.get notSensitive
  cases leftFound : left.get name with
  | none =>
    rw [leftFound] at found
    cases rightFound : right.get name with
    | none => rfl
    | some _ =>
      rw [rightFound] at found
      cases found
  | some leftValue =>
    rw [leftFound] at found
    cases rightFound : right.get name with
    | none =>
      rw [rightFound] at found
      cases found
    | some rightValue =>
      rw [rightFound] at found
      cases found with
      | some value => exact value.asStr_eq

/-! ## Headers -/

/-- The same names, and the same values under those that are not sensitive. -/
def AlikeHeaders (sanitizer : Sanitizer) (left right : HeaderMap) : Prop :=
  List.Forall₂ (fun left right => left.1 = right.1 ∧
    (sanitizer.isSensitiveKey left.1 = false → left.2 = right.2)) left right

/-- The last value of each name. -/
def lastValues (headers : HeaderMap) : HeaderMap :=
  headers.foldl (fun kept header => HeaderMap.insert kept header.1 header.2) []

def isBearerHeader (value : HeaderValue) : Bool := (HeaderValue.toStr value).any isBearer

/-- The last values of a sensitive header are both bearer tokens, or neither. -/
def MaskedHeaders (sanitizer : Sanitizer) (left right : HeaderMap) : Prop :=
  List.Forall₂ (fun left right => sanitizer.isSensitiveKey left.1 = true →
    isBearerHeader left.2 = isBearerHeader right.2) (lastValues left) (lastValues right)

theorem sanitizeHeaders_eq_map (headers : HeaderMap) :
    sanitizer.sanitizeHeaders headers =
      (lastValues headers).map fun header => (header.1, sanitizer.sanitizeHeader header.1 header.2) := by
  unfold sanitizeHeaders lastValues
  induction headers using List.reverseRecOn with
  | nil => rfl
  | append_singleton earlier header inductionHypothesis =>
    rw [List.foldl_append, List.foldl_append, List.foldl_cons, List.foldl_cons, List.foldl_nil,
      List.foldl_nil, inductionHypothesis]
    unfold HeaderMap.insert
    rw [List.map_append, List.filter_map]
    rfl

theorem AlikeHeaders.insert {left right : HeaderMap} (alike : AlikeHeaders sanitizer left right)
    {name : String} {value other : HeaderValue}
    (same : sanitizer.isSensitiveKey name = false → value = other) :
    AlikeHeaders sanitizer (left.insert name value) (right.insert name other) := by
  refine List.rel_append ?_ (.cons ⟨rfl, same⟩ .nil)
  induction alike with
  | nil => exact .nil
  | @cons leftHeader rightHeader _ _ header _ inductionHypothesis =>
    by_cases isName : leftHeader.1 = name
    · rw [List.filter_cons_of_neg (by simpa using isName),
        List.filter_cons_of_neg (by simpa [← header.1] using isName)]
      exact inductionHypothesis
    · rw [List.filter_cons_of_pos (by simpa using isName),
        List.filter_cons_of_pos (by simpa [← header.1] using isName)]
      exact .cons header inductionHypothesis

theorem AlikeHeaders.lastValues {left right : HeaderMap} (alike : AlikeHeaders sanitizer left right) :
    AlikeHeaders sanitizer (lastValues left) (lastValues right) := by
  have general : ∀ {keptLeft keptRight : HeaderMap}, AlikeHeaders sanitizer keptLeft keptRight →
      AlikeHeaders sanitizer
        (left.foldl (fun kept header => HeaderMap.insert kept header.1 header.2) keptLeft)
        (right.foldl (fun kept header => HeaderMap.insert kept header.1 header.2) keptRight) := by
    induction alike with
    | nil => exact fun kept => kept
    | @cons leftHeader rightHeader _ _ header _ inductionHypothesis =>
      intro keptLeft keptRight kept
      rw [List.foldl_cons, List.foldl_cons, ← header.1]
      exact inductionHypothesis (kept.insert header.2)
  exact general .nil

theorem AlikeHeaders.get_eq {left right : HeaderMap} (alike : AlikeHeaders sanitizer left right)
    {name : String} (notSensitive : sanitizer.isSensitiveKey name = false) :
    left.get name = right.get name := by
  unfold HeaderMap.get
  induction alike with
  | nil => rfl
  | @cons leftHeader rightHeader _ _ header _ inductionHypothesis =>
    rw [List.lookup_cons, List.lookup_cons, inductionHypothesis, ← header.1]
    cases found : name == leftHeader.1 with
    | false => rfl
    | true =>
      rw [beq_iff_eq] at found
      exact congrArg some (header.2 (found ▸ notSensitive))

theorem sanitizeHeader_eq_iff {name : String} (isSensitive : sanitizer.isSensitiveKey name = true)
    (left right : HeaderValue) :
    sanitizer.sanitizeHeader name left = sanitizer.sanitizeHeader name right ↔
      isBearerHeader left = isBearerHeader right := by
  have masked : ∀ value : HeaderValue, sanitizer.sanitizeHeader name value =
      .ofString (if isBearerHeader value then redactedBearer else redactedPlaceholder) := by
    intro value
    unfold sanitizeHeader isBearerHeader
    rw [if_pos isSensitive]
    cases HeaderValue.toStr value <;> rfl
  have differ : HeaderValue.ofString redactedBearer ≠ HeaderValue.ofString redactedPlaceholder := by
    decide
  rw [masked, masked]
  cases isBearerHeader left <;> cases isBearerHeader right <;> simp [differ, Ne.symm differ]

/-- Of alike headers, the sanitizer hides the difference exactly when they are masked alike. -/
theorem AlikeHeaders.sanitized_iff {left right : HeaderMap} (alike : AlikeHeaders sanitizer left right) :
    sanitizer.sanitizeHeaders left = sanitizer.sanitizeHeaders right ↔
      MaskedHeaders sanitizer left right := by
  have kept := alike.lastValues
  rw [sanitizeHeaders_eq_map, sanitizeHeaders_eq_map]
  unfold MaskedHeaders
  generalize Sanitizer.lastValues left = lefts at kept ⊢
  generalize Sanitizer.lastValues right = rights at kept ⊢
  induction kept with
  | nil => exact iff_of_true rfl .nil
  | @cons leftHeader rightHeader _ _ header _ inductionHypothesis =>
    rw [List.map_cons, List.map_cons, List.cons.injEq, List.forall₂_cons, Prod.mk.injEq, ← header.1]
    refine and_congr ?_ inductionHypothesis
    cases isSensitive : sanitizer.isSensitiveKey leftHeader.1 with
    | true => simp [sanitizeHeader_eq_iff isSensitive]
    | false => simp [header.2 isSensitive]

/-! ## Requests -/

/-- What is written of an operation: its parsed body is not. -/
def serializedGql (gql : GraphQLRequestInfo) : GraphQLRequestInfo := { gql with parsedBody := none }

def serializedRequest (info : RequestInfo) : RequestInfo :=
  { info with gql := info.gql.map serializedGql }

/-- One operation, decoded from texts of alike values. -/
structure AlikeGql (sanitizer : Sanitizer) (fromStr : String → Option Json)
    (left right : GraphQLRequestInfo) : Prop where
  operationType : left.operationType = right.operationType
  operationName : left.operationName = right.operationName
  rootFields : left.rootFields = right.rootFields
  leftText : left.rawBody.bind fromStr = some left.jsonBody
  rightText : right.rawBody.bind fromStr = some right.jsonBody
  body : Alike sanitizer left.jsonBody right.jsonBody

/-- One request, but for its secrets and the query of its URI. -/
structure AlikeRequest (sanitizer : Sanitizer) (fromStr : String → Option Json)
    (left right : RequestInfo) : Prop where
  requestId : left.requestId = right.requestId
  hlc : left.hlc = right.hlc
  method : left.http.method = right.http.method
  headers : AlikeHeaders sanitizer left.http.headers right.http.headers
  gql : Option.Rel (AlikeGql sanitizer fromStr) left.gql right.gql

/-- The sanitizer does not look at the URI. -/
structure MaskedRequest (sanitizer : Sanitizer) (left right : RequestInfo) : Prop where
  uri : left.http.uri = right.http.uri
  headers : MaskedHeaders sanitizer left.http.headers right.http.headers
  body : ∀ leftGql ∈ left.gql, ∀ rightGql ∈ right.gql,
    Masked sanitizer 0 leftGql.jsonBody rightGql.jsonBody

theorem serializedGql_sanitizeGql {fromStr : String → Option Json} {gql : GraphQLRequestInfo}
    (text : gql.rawBody.bind fromStr = some gql.jsonBody) :
    serializedGql (sanitizer.sanitizeGql patterns fromStr gql) =
      ⟨gql.operationType, gql.operationName, gql.rootFields,
        some (sanitizer.sanitizeValue patterns gql.jsonBody).toString,
        sanitizer.sanitizeValue patterns gql.jsonBody, none⟩ := by
  obtain ⟨raw, isRaw, isValue⟩ := Option.bind_eq_some_iff.mp text
  have rawText : gql.rawBody.map (sanitizer.sanitizeJsonStr patterns fromStr) =
      some (sanitizer.sanitizeValue patterns gql.jsonBody).toString := by
    simp [isRaw, sanitizeJsonStr, isValue]
  have body : (if gql.jsonBody.isNull then gql.jsonBody
      else sanitizer.sanitizeValue patterns gql.jsonBody) =
      sanitizer.sanitizeValue patterns gql.jsonBody := by
    cases gql.jsonBody with
    | null => simp [Json.isNull, sanitizeValue, sanitizeValueDepth]
    | bool _ | number _ | string _ | array _ | object _ => rfl
  unfold serializedGql sanitizeGql
  rw [rawText, body]

theorem AlikeGql.sanitized_iff {fromStr : String → Option Json} {left right : GraphQLRequestInfo}
    (alike : AlikeGql sanitizer fromStr left right) :
    serializedGql (sanitizer.sanitizeGql patterns fromStr left) =
        serializedGql (sanitizer.sanitizeGql patterns fromStr right) ↔
      Masked sanitizer 0 left.jsonBody right.jsonBody := by
  rw [serializedGql_sanitizeGql alike.leftText, serializedGql_sanitizeGql alike.rightText,
    alike.operationType, alike.operationName, alike.rootFields, ← alike.body.sanitized_iff]
  unfold sanitizeValue
  constructor
  · intro equal
    injection equal
  · intro equal
    rw [equal]

/-- Of alike requests, the sanitizer hides the difference exactly when they are masked alike. -/
theorem AlikeRequest.sanitized_iff {fromStr : String → Option Json} {left right : RequestInfo}
    (alike : AlikeRequest sanitizer fromStr left right) :
    serializedRequest (sanitizer.sanitizeRequest patterns fromStr left) =
        serializedRequest (sanitizer.sanitizeRequest patterns fromStr right) ↔
      MaskedRequest sanitizer left right := by
  obtain ⟨requestId, hlc, ⟨method, uri, headers⟩, gql⟩ := left
  obtain ⟨_, _, ⟨_, otherUri, otherHeaders⟩, otherGql⟩ := right
  obtain ⟨rfl, rfl, rfl, sameHeaders, sameGql⟩ := alike
  have masked := sameHeaders.sanitized_iff
  simp only at masked
  simp only [serializedRequest, sanitizeRequest, RequestInfo.mk.injEq, RequestParts.mk.injEq, true_and,
    masked]
  cases sameGql with
  | none =>
    constructor
    · exact fun equal => ⟨equal.1.1, equal.1.2, by simp⟩
    · exact fun masked => ⟨⟨masked.uri, masked.headers⟩, rfl⟩
  | @some leftGql rightGql alikeGql =>
    have maskedGql : serializedGql (sanitizer.sanitizeGql patterns fromStr leftGql) =
        serializedGql (sanitizer.sanitizeGql patterns fromStr rightGql) ↔
        Masked sanitizer 0 leftGql.jsonBody rightGql.jsonBody := alikeGql.sanitized_iff
    constructor
    · intro equal
      refine ⟨equal.1.1, equal.1.2, ?_⟩
      rintro _ ⟨⟩ _ ⟨⟩
      exact maskedGql.mp (Option.some.inj equal.2)
    · intro masked
      exact ⟨⟨masked.uri, masked.headers⟩, congrArg some (maskedGql.mpr (masked.body _ rfl _ rfl))⟩

end Sanitizer

end SpectraGQL.Interceptors
