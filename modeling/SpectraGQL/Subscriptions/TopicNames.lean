import SpectraGQL.Protocol.Syntax
import SpectraGQL.Subscriptions.Topic

/-! # Topics tell subscriptions apart (`derive_subscription_topic` of `subscriptions/engine.rs`)

A topic is the prefix, the root field in lower case and, behind a dot, the primary argument.  The
root field has no dot, so the argument is whatever stands behind it, dots or not.
-/

namespace SpectraGQL.Subscriptions

open SpectraGQL.Http SpectraGQL.Protocol

/-! ## The root field -/

/-- The fields of a list of selections, with their arguments. -/
def SelectionNode.fieldOf : SelectionNode → Option (Option String × List ArgumentNode)
  | .field name arguments => some (name, arguments.getD [])
  | .fragment => none

def DefinitionNode.fields : DefinitionNode → List (Option String × List ArgumentNode)
  | .operation node => (node.selectionSet.getD []).filterMap SelectionNode.fieldOf
  | .other => []

/-- The fields that the operations of a document select themselves. -/
def SubscriptionDocument.fields (document : SubscriptionDocument) :
    List (Option String × List ArgumentNode) :=
  document.definitions.flatMap DefinitionNode.fields

/-- The arguments of the first field. -/
def SubscriptionDocument.rootArguments (document : SubscriptionDocument) : List ArgumentNode :=
  (document.fields.head?.map Prod.snd).getD []

/-- What the GraphQL crate promises of a document without errors: the fields that have names have
    names of the language. -/
def NamesFields (parse : String → SubscriptionDocument) : Prop :=
  ∀ query, (parse query).errors = [] → ∀ name arguments, (some name, arguments) ∈ (parse query).fields →
    ∀ char ∈ name.toList, isNameContinue char = true

section RootField

variable {topicPrefix topic rootField : String} {vars : Option Json}

theorem scanSelections_eq (selections : List SelectionNode) :
    scanSelections topicPrefix vars selections =
      (selections.filterMap SelectionNode.fieldOf).head?.map fun field =>
        match field.1 with
        | none => .error "Field missing name"
        | some rootField =>
          .ok (fieldTopic topicPrefix rootField (primaryArgument vars none field.2), rootField) := by
  induction selections with
  | nil => rfl
  | cons selection rest inductionHypothesis =>
    cases selection with
    | fragment => exact inductionHypothesis
    | field name arguments => cases name <;> rfl

/-- The first field decides, whatever definitions stand before its own. -/
theorem scanDocument_eq_ok {definitions : List DefinitionNode}
    (scanned : scanDocument topicPrefix vars definitions = .ok (topic, rootField)) :
    ∃ arguments, (definitions.flatMap DefinitionNode.fields).head? = some (some rootField, arguments) ∧
      topic = fieldTopic topicPrefix rootField (primaryArgument vars none arguments) := by
  induction definitions with
  | nil => cases scanned
  | cons definition rest inductionHypothesis =>
    cases definition with
    | other => exact inductionHypothesis scanned
    | operation operation =>
      rw [scanDocument, scanSelections_eq] at scanned
      split at scanned
      · rw [List.flatMap_cons, List.head?_append, DefinitionNode.fields]
        cases fields : (operation.selectionSet.getD []).filterMap SelectionNode.fieldOf with
        | nil =>
          rw [fields] at scanned
          exact inductionHypothesis scanned
        | cons field fields' =>
          obtain ⟨name, arguments⟩ := field
          rw [fields] at scanned
          cases name with
          | none => cases scanned
          | some name =>
            cases scanned
            exact ⟨arguments, rfl, rfl⟩
      · cases scanned

theorem deriveSubscriptionTopic_eq_ok {parse : String → SubscriptionDocument} {query : String}
    (derived : deriveSubscriptionTopic parse topicPrefix query vars = .ok (topic, rootField)) :
    (parse query).errors = [] ∧ (some rootField, (parse query).rootArguments) ∈ (parse query).fields ∧
      topic = fieldTopic topicPrefix rootField (primaryArgument vars none (parse query).rootArguments) := by
  simp only [deriveSubscriptionTopic] at derived
  split at derived
  · cases derived
  · rename_i noErrors
    obtain ⟨arguments, isFirst, isTopic⟩ := scanDocument_eq_ok derived
    have isRoot : (parse query).rootArguments = arguments := by
      rw [SubscriptionDocument.rootArguments, SubscriptionDocument.fields, isFirst]
      rfl
    exact ⟨not_not.mp noErrors, isRoot ▸ List.mem_of_head? isFirst, isRoot ▸ isTopic⟩

end RootField

/-! ## The parts of a topic -/

theorem plain_of_name {name : String} (isName : ∀ char ∈ name.toList, isNameContinue char = true) :
    '.' ∉ (toLowercase name).toList := by
  apply plain_toLowercase (by decide)
  intro isDot
  have continues := isName '.' isDot
  simp [isNameContinue, isNameStart, isLetter, isDigit] at continues

/-- Where there is no dot, no argument follows one. -/
theorem ne_dotted {field other value : List Char} (plain : '.' ∉ field) :
    field ≠ other ++ '.' :: value := by
  intro same
  simp [same] at plain

/-- The topic says which root field it is of, and which argument, if any. -/
theorem fieldTopic_inj {topicPrefix rootField otherField : String} {argument other : Option String}
    (plain : '.' ∉ (toLowercase rootField).toList) (otherPlain : '.' ∉ (toLowercase otherField).toList) :
    fieldTopic topicPrefix rootField argument = fieldTopic topicPrefix otherField other ↔
      toLowercase rootField = toLowercase otherField ∧ argument = other := by
  constructor
  · intro same
    have letters := String.toList_inj.mpr same
    cases argument with
    | none =>
      cases other with
      | none => simpa [fieldTopic, String.toList_inj] using letters
      | some value =>
        have isLonger : (toLowercase rootField).toList =
            (toLowercase otherField).toList ++ '.' :: value.toList := by
          simpa [fieldTopic] using letters
        exact absurd isLonger (ne_dotted plain)
    | some value =>
      cases other with
      | none =>
        have isLonger : (toLowercase rootField).toList ++ '.' :: value.toList =
            (toLowercase otherField).toList := by
          simpa [fieldTopic] using letters
        exact absurd isLonger.symm (ne_dotted otherPlain)
      | some otherValue =>
        have parts : (toLowercase rootField).toList ++ '.' :: value.toList =
            (toLowercase otherField).toList ++ '.' :: otherValue.toList := by
          simpa [fieldTopic] using letters
        -- both come apart at the first dot, whatever dots the arguments have
        obtain ⟨sameField, sameValue⟩ := firstSeparator_inj plain otherPlain parts
        exact ⟨String.toList_inj.mp sameField, congrArg some (String.toList_inj.mp sameValue)⟩
  · intro same
    simp only [fieldTopic, same.1, same.2]

/-! ## The primary argument -/

/-- The value of an argument that has the name of an identifier. -/
def ArgumentNode.identifier (vars : Option Json) (argument : ArgumentNode) : Option String :=
  if isIdentifier (argument.name.getD "") then argumentText vars argument.value else none

/-- The first identifier that has a value, or else the first argument that has one. -/
theorem primaryArgument_eq (vars : Option Json) (primary : Option String) (arguments : List ArgumentNode) :
    primaryArgument vars primary arguments =
      ((arguments.filterMap (ArgumentNode.identifier vars)).head? <|> primary <|>
        (arguments.filterMap fun argument => argumentText vars argument.value).head?) := by
  induction arguments generalizing primary with
  | nil => cases primary <;> rfl
  | cons argument rest inductionHypothesis =>
    unfold primaryArgument
    cases valued : argumentText vars argument.value with
    | none => simp [ArgumentNode.identifier, valued, inductionHypothesis]
    | some value =>
      by_cases identifies : isIdentifier (argument.name.getD "") = true
      · simp [ArgumentNode.identifier, valued, identifies]
      · simp only [ArgumentNode.identifier, valued, identifies, List.filterMap_cons, inductionHypothesis]
        cases primary <;> simp [ArgumentNode.identifier]

theorem primaryArgument_of_identifier {vars : Option Json} {arguments : List ArgumentNode} {value : String}
    (only : arguments.filterMap (ArgumentNode.identifier vars) = [value]) :
    primaryArgument vars none arguments = some value := by
  rw [primaryArgument_eq, only]
  rfl

/-- Two subscriptions have the same topic exactly if they have the same root field, up to case, and
    the same primary argument or none; if one argument only is an identifier with a value, the topic
    is made of that value, whatever the others are and wherever it stands. -/
theorem topics_unambiguous {parse : String → SubscriptionDocument} (names : NamesFields parse)
    {topicPrefix query otherQuery topic otherTopic rootField otherField : String}
    {vars otherVars : Option Json}
    (derived : deriveSubscriptionTopic parse topicPrefix query vars = .ok (topic, rootField))
    (otherDerived : deriveSubscriptionTopic parse topicPrefix otherQuery otherVars =
      .ok (otherTopic, otherField)) :
    (topic = otherTopic ↔ toLowercase rootField = toLowercase otherField ∧
      primaryArgument vars none (parse query).rootArguments =
        primaryArgument otherVars none (parse otherQuery).rootArguments) ∧
    ∀ value, (parse query).rootArguments.filterMap (ArgumentNode.identifier vars) = [value] →
      topic = topicPrefix ++ ".events." ++ toLowercase rootField ++ "." ++ value := by
  obtain ⟨valid, isField, isTopic⟩ := deriveSubscriptionTopic_eq_ok derived
  obtain ⟨otherValid, isOtherField, isOtherTopic⟩ := deriveSubscriptionTopic_eq_ok otherDerived
  constructor
  · rw [isTopic, isOtherTopic]
    exact fieldTopic_inj (plain_of_name (names _ valid _ _ isField))
      (plain_of_name (names _ otherValid _ _ isOtherField))
  · intro value only
    rw [isTopic, primaryArgument_of_identifier only]
    rfl

/-! ## Two orders -/

/-- A subscription to one field with these arguments. -/
def subscriptionTo (rootField : String) (arguments : List ArgumentNode) : SubscriptionDocument :=
  ⟨[], [.operation ⟨some true, some [.field (some rootField) (some arguments)]⟩]⟩

def literalQuery : String := "subscription \x7b orderUpdates(id: \"42\") \x7b status \x7d \x7d"

def variableQuery : String :=
  "subscription($id: ID!) \x7b orderUpdates(first: 3, id: $id) \x7b status \x7d \x7d"

/-- A parser that knows these two queries. -/
def parseOrders (query : String) : SubscriptionDocument :=
  if query = literalQuery then
    subscriptionTo "orderUpdates" [⟨some "id", some (.string "\"42\"")⟩]
  else if query = variableQuery then
    subscriptionTo "orderUpdates" [⟨some "first", some (.int "3")⟩, ⟨some "id", some (.variable (some "id"))⟩]
  else ⟨["syntax error"], []⟩

theorem parseOrders_namesFields : NamesFields parseOrders := by
  intro query valid name arguments isField
  have plain : "orderUpdates".toList.all isNameContinue = true := by decide
  unfold parseOrders at valid isField
  split at isField
  · obtain ⟨rfl, -⟩ : name = "orderUpdates" ∧ _ := by
      simpa [subscriptionTo, SubscriptionDocument.fields, DefinitionNode.fields,
        SelectionNode.fieldOf] using isField
    exact List.all_eq_true.mp plain
  · split at isField
    · obtain ⟨rfl, -⟩ : name = "orderUpdates" ∧ _ := by
        simpa [subscriptionTo, SubscriptionDocument.fields, DefinitionNode.fields,
          SelectionNode.fieldOf] using isField
      exact List.all_eq_true.mp plain
    · cases isField

/-- One order in two ways. -/
theorem topics_unambiguous_orders :
    ("spectra.events.orderupdates.42" = "spectra.events.orderupdates.42" ↔
      toLowercase "orderUpdates" = toLowercase "orderUpdates" ∧
        primaryArgument none none (parseOrders literalQuery).rootArguments =
          primaryArgument (some (.object [("id", .string "42")])) none
            (parseOrders variableQuery).rootArguments) ∧
    ∀ value, (parseOrders literalQuery).rootArguments.filterMap (ArgumentNode.identifier none) = [value] →
      "spectra.events.orderupdates.42" =
        "spectra" ++ ".events." ++ toLowercase "orderUpdates" ++ "." ++ value :=
  topics_unambiguous parseOrders_namesFields rfl rfl

end SpectraGQL.Subscriptions
