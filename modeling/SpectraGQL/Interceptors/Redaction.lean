import SpectraGQL.Interceptors.Sanitizer

/-! # What survives in a sanitized value (`interceptors/sanitizer.rs`, `sanitize_value`)

A member is told by its name, what it holds, and how many arrays and objects are around the
object that it is in.
-/

namespace SpectraGQL.Interceptors

open SpectraGQL.Http SpectraGQL.Protocol

/-- A member somewhere in a value, `levels` below its top and beneath names that `passes` allows. -/
inductive Located (passes : String → Prop) (key : String) (held : Json) : Nat → Json → Prop where
  | here {members : List (String × Json)} (member : (key, held) ∈ members) :
      Located passes key held 0 (.object members)
  | beneath {members : List (String × Json)} {name : String} {value : Json} {levels : Nat}
      (member : (name, value) ∈ members) (allowed : passes name)
      (inside : Located passes key held levels value) :
      Located passes key held (levels + 1) (.object members)
  | item {items : List Json} {value : Json} {levels : Nat} (member : value ∈ items)
      (inside : Located passes key held levels value) :
      Located passes key held (levels + 1) (.array items)

/-- The two texts that stand in the place of what was masked. -/
def IsPlaceholder (value : Json) : Prop :=
  value = .string redactedPlaceholder ∨ value = .string redactedBearer

theorem isPlaceholder_maskValue (value : Json) : IsPlaceholder (maskValue value) := by
  cases value with
  | string text =>
    simp only [maskValue, maskText, IsPlaceholder]
    split
    · exact .inr rfl
    · exact .inl rfl
  | _ => exact .inl rfl

namespace Sanitizer

variable {sanitizer : Sanitizer} {patterns : Patterns}

theorem sanitizeItems_eq_map (depth : Nat) (items : List Json) :
    sanitizer.sanitizeItems patterns depth items =
      items.map (sanitizer.sanitizeValueDepth patterns depth) := by
  induction items with
  | nil => rfl
  | cons item items inductionHypothesis => simp [sanitizeItems, inductionHypothesis]

/-- What becomes of the value of a member. -/
def sanitizeMember (sanitizer : Sanitizer) (patterns : Patterns) (depth : Nat) (name : String)
    (value : Json) : Json :=
  if sanitizer.isSensitiveKey name then maskValue value
  else if isQueryKey name then sanitizeQuery patterns value
  else sanitizer.sanitizeValueDepth patterns depth value

theorem mem_sanitizeMembers {depth : Nat} {members : List (String × Json)} {name : String} {value : Json}
    (member : (name, value) ∈ sanitizer.sanitizeMembers patterns depth members) :
    ∃ original, (name, original) ∈ members ∧
      value = sanitizer.sanitizeMember patterns depth name original := by
  induction members with
  | nil => simp [sanitizeMembers] at member
  | cons head members inductionHypothesis =>
    obtain ⟨other, original⟩ := head
    simp only [sanitizeMembers, List.mem_cons, Prod.mk.injEq] at member
    cases member with
    | inl first =>
      obtain ⟨rfl, rfl⟩ := first
      exact ⟨original, List.mem_cons_self, rfl⟩
    | inr later =>
      obtain ⟨kept, inRest, same⟩ := inductionHypothesis later
      exact ⟨kept, List.mem_cons_of_mem _ inRest, same⟩

/-- A placeholder has no members. -/
theorem not_located_of_isPlaceholder {passes : String → Prop} {key : String} {held value : Json}
    {levels : Nat} (placeholder : IsPlaceholder value) : ¬ Located passes key held levels value := by
  intro located
  cases placeholder with
  | inl same => rw [same] at located; cases located
  | inr same => rw [same] at located; cases located

/-- Below the cut-off every sensitive member that is reached is masked. -/
theorem isPlaceholder_of_located {key : String} {held : Json}
    (sensitive : sanitizer.isSensitiveKey key = true) (levels : Nat) :
    ∀ (depth : Nat) (value : Json), depth + levels ≤ 64 →
      Located (fun name => isQueryKey name = false) key held levels
        (sanitizer.sanitizeValueDepth patterns depth value) → IsPlaceholder held := by
  induction levels with
  | zero =>
    intro depth value shallow located
    cases value with
    | object members =>
      have reached : ¬ depth > 64 := by omega
      simp only [sanitizeValueDepth, if_neg reached] at located
      cases located with
      | here member =>
        obtain ⟨original, -, rfl⟩ := mem_sanitizeMembers member
        simp only [sanitizeMember, sensitive, if_true]
        exact isPlaceholder_maskValue original
    | array items =>
      simp only [sanitizeValueDepth] at located
      split at located <;> cases located
    | string text =>
      simp only [sanitizeValueDepth] at located
      split at located <;> cases located
    | _ => simp only [sanitizeValueDepth] at located; cases located
  | succ levels inductionHypothesis =>
    intro depth value shallow located
    have reached : ¬ depth > 64 := by omega
    cases value with
    | object members =>
      simp only [sanitizeValueDepth, if_neg reached] at located
      cases located with
      | beneath member allowed inside =>
        rename_i name held'
        obtain ⟨original, -, rfl⟩ := mem_sanitizeMembers member
        -- the member above is neither masked nor a query, so it was looked into
        cases masked : sanitizer.isSensitiveKey name with
        | true =>
          simp only [sanitizeMember, masked, if_true] at inside
          exact absurd inside (not_located_of_isPlaceholder (isPlaceholder_maskValue original))
        | false =>
          simp only [sanitizeMember, masked, allowed, Bool.false_eq_true, if_false] at inside
          exact inductionHypothesis (depth + 1) original (by omega) inside
    | array items =>
      simp only [sanitizeValueDepth, if_neg reached, sanitizeItems_eq_map] at located
      cases located with
      | item member inside =>
        obtain ⟨original, -, rfl⟩ := List.mem_map.mp member
        exact inductionHypothesis (depth + 1) original (by omega) inside
    | string text =>
      simp only [sanitizeValueDepth] at located
      split at located <;> cases located
    | _ => simp only [sanitizeValueDepth] at located; cases located

/-- Patterns that find nothing. -/
def noPatterns : Patterns := ⟨id, id⟩

/-- Arrays around a value. -/
def nested : Nat → Json → Json
  | 0, value => value
  | levels + 1, value => .array [nested levels value]

theorem located_nested {passes : String → Prop} {key : String} {held value : Json}
    (located : Located passes key held 0 value) (levels : Nat) :
    Located passes key held levels (nested levels value) := by
  induction levels with
  | zero => exact located
  | succ levels inductionHypothesis => exact .item List.mem_cons_self inductionHypothesis

end Sanitizer

/-! ## What is left alone -/

/-- A step from an object or an array to something in it. -/
inductive PathStep where
  | member (name : String)
  | item (index : Nat)
  deriving DecidableEq, Repr

/-- What is found along a path. -/
def valueAt : List PathStep → Json → Option Json
  | [], value => some value
  | .member name :: path, .object members => (members.lookup name).bind (valueAt path)
  | .item index :: path, .array items => items[index]?.bind (valueAt path)
  | _ :: _, _ => none

/-- A value that nothing is within. -/
def IsLeaf (value : Json) : Prop :=
  (∀ members, value ≠ .object members) ∧ ∀ items, value ≠ .array items

/-- A text that is the value of a member called `query`. -/
def IsQueryText (path : List PathStep) (value : Json) : Prop :=
  (∃ before name, path = before ++ [.member name] ∧ isQueryKey name = true) ∧
    ∃ text, value = .string text

theorem IsQueryText.cons {path : List PathStep} {value : Json} (queryText : IsQueryText path value)
    (step : PathStep) : IsQueryText (step :: path) value := by
  obtain ⟨⟨before, name, rfl, isQuery⟩, isText⟩ := queryText
  exact ⟨⟨step :: before, name, rfl, isQuery⟩, isText⟩

namespace Sanitizer

variable {sanitizer : Sanitizer} {patterns : Patterns}

/-- No member on the path is sensitive. -/
def Ordinary (sanitizer : Sanitizer) (path : List PathStep) : Prop :=
  ∀ name, .member name ∈ path → sanitizer.isSensitiveKey name = false

theorem sanitizeValueDepth_of_deep {depth : Nat} (deep : depth > 64) (value : Json) :
    sanitizer.sanitizeValueDepth patterns depth value = value := by
  cases value <;> simp [sanitizeValueDepth, deep]

theorem lookup_sanitizeMembers (depth : Nat) (members : List (String × Json)) (name : String) :
    (sanitizer.sanitizeMembers patterns depth members).lookup name =
      (members.lookup name).map (sanitizer.sanitizeMember patterns depth name) := by
  induction members with
  | nil => rfl
  | cons member members inductionHypothesis =>
    obtain ⟨other, value⟩ := member
    cases same : name == other with
    | true =>
      obtain rfl := eq_of_beq same
      simp [sanitizeMembers, sanitizeMember]
    | false => simp [sanitizeMembers, List.lookup_cons, same, inductionHypothesis]

theorem names_sanitizeMembers (depth : Nat) (members : List (String × Json)) :
    (sanitizer.sanitizeMembers patterns depth members).map Prod.fst = members.map Prod.fst := by
  induction members with
  | nil => rfl
  | cons member members inductionHypothesis => simp [sanitizeMembers, inductionHypothesis]

/-- Only texts are looked into under `query`. -/
theorem sanitizeQuery_eq_self {value : Json} (notText : ∀ text, value ≠ .string text) :
    sanitizeQuery patterns value = value := by
  cases value with
  | string text => exact absurd rfl (notText text)
  | null | bool _ | number _ | array _ | object _ => rfl

/-- What is found along an ordinary path is found there again, sanitized at some depth. -/
theorem valueAt_sanitizeValueDepth (patterns : Patterns) {path : List PathStep} {value found : Json}
    (depth : Nat) (ordinary : sanitizer.Ordinary path) (reached : valueAt path value = some found)
    (notQuery : ¬ IsQueryText path found) :
    ∃ deeper, valueAt path (sanitizer.sanitizeValueDepth patterns depth value) =
      some (sanitizer.sanitizeValueDepth patterns deeper found) := by
  induction path generalizing depth value with
  | nil =>
    simp only [valueAt, Option.some.injEq] at reached
    exact ⟨depth, by simp [valueAt, reached]⟩
  | cons step path inductionHypothesis =>
    have ordinaryRest : sanitizer.Ordinary path :=
      fun name member => ordinary name (List.mem_cons_of_mem _ member)
    have notQueryRest : ¬ IsQueryText path found := fun queryText => notQuery (queryText.cons step)
    by_cases deep : depth > 64
    · -- beneath the cut-off nothing is changed
      refine ⟨depth, ?_⟩
      rw [sanitizeValueDepth_of_deep deep, sanitizeValueDepth_of_deep deep]
      exact reached
    · cases step with
      | member name =>
        cases value with
        | object members =>
          obtain ⟨held, listed, inside⟩ := Option.bind_eq_some_iff.mp reached
          have notSensitive := ordinary name List.mem_cons_self
          simp only [sanitizeValueDepth, if_neg deep, valueAt, lookup_sanitizeMembers, listed,
            Option.map_some, Option.bind_some, sanitizeMember, notSensitive, Bool.false_eq_true,
            if_false]
          cases isQuery : isQueryKey name with
          | false => exact inductionHypothesis (depth + 1) ordinaryRest inside notQueryRest
          | true =>
            -- a query that is not a text is returned as it is
            have notText : ∀ text, held ≠ .string text := by
              rintro text rfl
              cases path with
              | nil =>
                simp only [valueAt, Option.some.injEq] at inside
                exact notQuery ⟨⟨[], name, rfl, isQuery⟩, text, inside.symm⟩
              | cons next path => cases next <;> cases inside
            refine ⟨65, ?_⟩
            simp only [if_true, sanitizeQuery_eq_self notText]
            rw [sanitizeValueDepth_of_deep (by omega)]
            exact inside
        | null | bool _ | number _ | string _ | array _ => cases reached
      | item index =>
        cases value with
        | array items =>
          obtain ⟨held, listed, inside⟩ := Option.bind_eq_some_iff.mp reached
          simp only [sanitizeValueDepth, if_neg deep, valueAt, sanitizeItems_eq_map,
            List.getElem?_map, listed, Option.map_some, Option.bind_some]
          exact inductionHypothesis (depth + 1) ordinaryRest inside notQueryRest
        | null | bool _ | number _ | string _ | object _ => cases reached

/-- What sanitizing leaves of a value outside of sensitive members: the names of every object,
    the items of every array, each in its place, and every leaf that is no secret itself. -/
structure Frame (sanitizer : Sanitizer) (patterns : Patterns) (original sanitized : Json) : Prop where
  names : ∀ {path : List PathStep} {members : List (String × Json)}, sanitizer.Ordinary path →
    valueAt path original = some (.object members) →
      ∃ kept, valueAt path sanitized = some (.object kept) ∧
        kept.map Prod.fst = members.map Prod.fst
  items : ∀ {path : List PathStep} {items : List Json}, sanitizer.Ordinary path →
    valueAt path original = some (.array items) →
      ∃ depth, valueAt path sanitized =
        some (.array (items.map (sanitizer.sanitizeValueDepth patterns depth)))
  leaves : ∀ {path : List PathStep} {leaf : Json}, sanitizer.Ordinary path →
    valueAt path original = some leaf → IsLeaf leaf → ¬ IsQueryText path leaf →
      (∀ text, leaf = .string text → isBearer text = false) → valueAt path sanitized = some leaf

/-- A leaf changes only if it is a bearer token. -/
theorem sanitizeValueDepth_leaf {leaf : Json} (depth : Nat) (isLeaf : IsLeaf leaf)
    (notBearer : ∀ text, leaf = .string text → isBearer text = false) :
    sanitizer.sanitizeValueDepth patterns depth leaf = leaf := by
  cases leaf with
  | null | bool _ | number _ => rfl
  | string text => simp [sanitizeValueDepth, maskBearer, notBearer text rfl]
  | array items => exact absurd rfl (isLeaf.2 items)
  | object members => exact absurd rfl (isLeaf.1 members)

end Sanitizer

end SpectraGQL.Interceptors
