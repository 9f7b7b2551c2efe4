import SpectraGQL.Protocol.Request

/-! # The operation that a request selects (`protocol/parser.rs`)

The parser looks for an operation of the wanted name in any case, and lists the fields of its selection
set.  An executor takes the operation with exactly that name, and collects fields through fragments
as well: `parse_selects_iff` and `root_fields_complete_iff` say when both see the same.
-/

namespace SpectraGQL.Protocol

open SpectraGQL.Http

/-- The operations of a document. -/
def operationsOf (definitions : List Definition) : List OperationDefinition :=
  definitions.filterMap fun
    | .operationDefinition definition => some definition
    | .fragmentDefinition _ _ | .typeSystemDefinition => none

/-- The operation that the parser settles on. -/
def selectedOperation (target : Option String) (definitions : List Definition) :
    Option OperationDefinition :=
  match target with
  | some name => (operationsOf definitions).find? fun definition => definition.isNamed name
  | none => (operationsOf definitions).head?

section

variable {crates : Crates} {query name : String} {target : Option String}
  {definitions before after : List Definition} {definition : OperationDefinition}
  {operation : ParsedGraphQLOperation}

/-- With a wanted name the loop goes on to the first operation of that name. -/
theorem scanDefinitions_some (name : String) (firstOp : Option ParsedGraphQLOperation)
    (definitions : List Definition) :
    (scanDefinitions (some name) firstOp definitions).1 =
      (selectedOperation (some name) definitions).map OperationDefinition.parsed := by
  induction definitions generalizing firstOp with
  | nil => rfl
  | cons other rest inductionHypothesis =>
    cases other with
    | operationDefinition other =>
      simp only [scanDefinitions, selectedOperation, operationsOf, List.filterMap_cons, List.find?_cons]
      cases isNamed : other.isNamed name with
      | true => rfl
      | false => simpa [selectedOperation, operationsOf] using inductionHypothesis _
    | fragmentDefinition _ _ | typeSystemDefinition =>
      simpa [scanDefinitions, selectedOperation, operationsOf] using inductionHypothesis firstOp

/-- Without one it keeps the first operation. -/
theorem scanDefinitions_none (firstOp : Option ParsedGraphQLOperation) (definitions : List Definition) :
    scanDefinitions none firstOp definitions =
      (none, firstOp.or ((selectedOperation none definitions).map OperationDefinition.parsed)) := by
  induction definitions generalizing firstOp with
  | nil => cases firstOp <;> rfl
  | cons other rest inductionHypothesis =>
    cases other with
    | operationDefinition other =>
      cases firstOp with
      | none => rfl
      | some first => simp [scanDefinitions, inductionHypothesis]
    | fragmentDefinition _ _ | typeSystemDefinition =>
      simpa [scanDefinitions, selectedOperation, operationsOf] using inductionHypothesis firstOp

/-- What the parser returns is the operation it has selected. -/
theorem parse_eq_ok_iff : parseGraphqlOperationWithName crates query target = .ok operation ↔
    (crates.parse query).errors = [] ∧
      (selectedOperation target (crates.parse query).definitions).map OperationDefinition.parsed =
        some operation := by
  by_cases valid : (crates.parse query).errors = []
  · cases target with
    | some name =>
      have scanned := scanDefinitions_some name none (crates.parse query).definitions
      cases isScanned : scanDefinitions (some name) none (crates.parse query).definitions with
      | mk found firstOp =>
        rw [isScanned] at scanned
        rw [← scanned]
        cases found <;> simp [parseGraphqlOperationWithName, valid, isScanned]
    | none =>
      have scanned := scanDefinitions_none none (crates.parse query).definitions
      cases isSelected : selectedOperation none (crates.parse query).definitions with
      | none => simp [parseGraphqlOperationWithName, valid, scanned, isSelected]
      | some definition => simp [parseGraphqlOperationWithName, valid, scanned, isSelected]
  · simp [parseGraphqlOperationWithName, valid]

/-- The operation that the parser returns is one of the document. -/
theorem mem_of_parse_eq_ok
    (parsed : parseGraphqlOperationWithName crates query target = .ok operation) :
    (crates.parse query).errors = [] ∧
      ∃ definition ∈ operationsOf (crates.parse query).definitions, operation = definition.parsed := by
  obtain ⟨valid, selected⟩ := parse_eq_ok_iff.mp parsed
  obtain ⟨definition, isSelected, isParsed⟩ := Option.map_eq_some_iff.mp selected
  refine ⟨valid, definition, ?_, isParsed.symm⟩
  cases target with
  | none => exact List.mem_of_head? isSelected
  | some name => exact List.mem_of_find?_eq_some isSelected

/-! ## By name -/

/-- The operation has exactly that name. -/
def OperationDefinition.HasName (definition : OperationDefinition) (name : String) : Prop :=
  definition.name = some name

instance : Decidable (definition.HasName name) := inferInstanceAs (Decidable (definition.name = some name))

theorem isNamed_of_hasName (hasName : definition.HasName name) : definition.isNamed name = true := by
  simp [OperationDefinition.isNamed, show definition.name = some name from hasName, eqIgnoreAsciiCase]

/-- Where one operation of a valid document has exactly the wanted name, the parser returns it
    exactly when no operation before it has that name in another case. -/
theorem parse_selects_iff (crates : Crates) (query name : String) (before after : List Definition)
    (definition : OperationDefinition) (valid : (crates.parse query).errors = [])
    (isDocument : (crates.parse query).definitions = before ++ .operationDefinition definition :: after)
    (hasName : definition.HasName name)
    (unique : ∀ other ∈ operationsOf (before ++ after), ¬ other.HasName name) :
    parseGraphqlOperationWithName crates query (some name) = .ok definition.parsed ↔
      ∀ other ∈ operationsOf before, other.isNamed name = false := by
  have operations : operationsOf (crates.parse query).definitions =
      operationsOf before ++ definition :: operationsOf after := by
    simp [isDocument, operationsOf, List.filterMap_append]
  rw [parse_eq_ok_iff, selectedOperation, operations, List.find?_append]
  simp only [valid, true_and]
  cases earlier : (operationsOf before).find? fun other => other.isNamed name with
  | none =>
    have noneBefore := List.find?_eq_none.mp earlier
    simp [isNamed_of_hasName hasName] at noneBefore ⊢
    exact noneBefore
  | some other =>
    -- an operation that was met before has another name
    have isNamed : other.isNamed name = true := by simpa using List.find?_some earlier
    have member : other ∈ operationsOf before := List.mem_of_find?_eq_some earlier
    have inDocument : other ∈ operationsOf (before ++ after) := by
      rw [operationsOf, List.filterMap_append]
      exact List.mem_append_left _ member
    constructor
    · intro isSelected
      have isParsed : other.parsed = definition.parsed := by simpa using isSelected
      have sameName : other.name = definition.name := congrArg ParsedGraphQLOperation.operationName isParsed
      exact absurd (sameName.trans hasName) (unique other inDocument)
    · intro noneBefore
      rw [noneBefore other member] at isNamed
      cases isNamed

end

/-- The parser on documents of the given operations. -/
def parsing (definitions : List Definition) : Crates where
  fromStr _ := none
  parse _ := ⟨[], definitions⟩
  sha256 _ := ""
  statusText _ := ""

/-- `query pay { balance }`. -/
def readBalance : OperationDefinition := ⟨some ⟨true, false, false⟩, some "pay", some [.field (some "balance")]⟩

/-- `mutation Pay { transfer }`. -/
def transferMoney : OperationDefinition :=
  ⟨some ⟨false, true, false⟩, some "Pay", some [.field (some "transfer")]⟩

theorem parse_selects_iff_first :
    parseGraphqlOperationWithName (parsing [.operationDefinition transferMoney, .operationDefinition readBalance])
      "mutation Pay \x7b transfer \x7d query pay \x7b balance \x7d" (some "Pay") = .ok transferMoney.parsed := by
  refine (parse_selects_iff _ _ "Pay" [] [.operationDefinition readBalance] transferMoney rfl rfl rfl ?_).mpr ?_
  · intro other member
    obtain rfl : other = readBalance := by simpa [operationsOf] using member
    decide
  · intro other member
    cases member

/-- The mutation is wanted, and the query before it is returned. -/
theorem other_case_selected :
    (∃ before after,
      ((parsing [.operationDefinition readBalance, .operationDefinition transferMoney]).parse
        "query pay \x7b balance \x7d mutation Pay \x7b transfer \x7d").definitions =
          before ++ .operationDefinition transferMoney :: after ∧
      transferMoney.HasName "Pay" ∧ ∀ other ∈ operationsOf (before ++ after), ¬ other.HasName "Pay") ∧
    parseGraphqlOperationWithName (parsing [.operationDefinition readBalance, .operationDefinition transferMoney])
      "query pay \x7b balance \x7d mutation Pay \x7b transfer \x7d" (some "Pay") = .ok readBalance.parsed ∧
    readBalance.parsed ≠ transferMoney.parsed := by
  refine ⟨⟨[.operationDefinition readBalance], [], rfl, rfl, ?_⟩, ?_, by decide⟩
  · intro other member
    obtain rfl : other = readBalance := by simpa [operationsOf] using member
    decide
  · rw [parse_eq_ok_iff]
    exact ⟨rfl, rfl⟩

/-! ## Root fields -/

/-- The selections at the root of an operation. -/
def OperationDefinition.selections (definition : OperationDefinition) : List Selection :=
  definition.selectionSet.getD []

/-- Field collection, directives aside: fields, and those that fragments lead to. -/
inductive Collects (definitions : List Definition) : List Selection → String → Prop where
  | field {selections : List Selection} {name : String} :
    .field (some name) ∈ selections → Collects definitions selections name
  | inlineFragment {selections inner : List Selection} {name : String} :
    .inlineFragment inner ∈ selections → Collects definitions inner name →
    Collects definitions selections name
  | fragmentSpread {selections inner : List Selection} {fragment name : String} :
    .fragmentSpread (some fragment) ∈ selections →
    .fragmentDefinition (some fragment) (some inner) ∈ definitions → Collects definitions inner name →
    Collects definitions selections name

/-- A fragment among the selections leads to the field. -/
def ThroughFragment (definitions : List Definition) (selections : List Selection) (name : String) : Prop :=
  ∃ inner, Collects definitions inner name ∧ (.inlineFragment inner ∈ selections ∨
    ∃ fragment, .fragmentSpread (some fragment) ∈ selections ∧
      .fragmentDefinition (some fragment) (some inner) ∈ definitions)

section

variable {definitions : List Definition} {selections : List Selection} {name : String}
  {definition : OperationDefinition}

/-- A field is collected from the selections or through a fragment among them. -/
theorem collects_iff : Collects definitions selections name ↔
    .field (some name) ∈ selections ∨ ThroughFragment definitions selections name := by
  constructor
  · intro collects
    cases collects with
    | field member => exact .inl member
    | inlineFragment member inner => exact .inr ⟨_, inner, .inl member⟩
    | fragmentSpread member isFragment inner => exact .inr ⟨_, inner, .inr ⟨_, member, isFragment⟩⟩
  · intro either
    cases either with
    | inl member => exact .field member
    | inr through =>
      obtain ⟨inner, collects, reached⟩ := through
      cases reached with
      | inl member => exact .inlineFragment member collects
      | inr spread =>
        obtain ⟨fragment, member, isFragment⟩ := spread
        exact .fragmentSpread member isFragment collects

theorem mem_rootFields : name ∈ definition.rootFields ↔ .field (some name) ∈ definition.selections := by
  simp only [OperationDefinition.rootFields, OperationDefinition.selections, List.mem_filterMap]
  constructor
  · rintro ⟨selection, member, isName⟩
    cases selection with
    | field other =>
      cases isName
      exact member
    | fragmentSpread _ | inlineFragment _ => cases isName
  · intro member
    exact ⟨_, member, rfl⟩

end

/-- The root fields of the selected operation are those that are collected exactly when the fields
    that fragments lead to stand in the selection set as well. -/
theorem root_fields_complete_iff (crates : Crates) (query : String) (target : Option String)
    (operation : ParsedGraphQLOperation)
    (parsed : parseGraphqlOperationWithName crates query target = .ok operation) :
    ∃ definition, selectedOperation target (crates.parse query).definitions = some definition ∧
      operation = definition.parsed ∧
      ((∀ name, name ∈ operation.rootFields ↔
          Collects (crates.parse query).definitions definition.selections name) ↔
        ∀ name, ThroughFragment (crates.parse query).definitions definition.selections name →
          .field (some name) ∈ definition.selections) := by
  obtain ⟨-, isParsed⟩ := parse_eq_ok_iff.mp parsed
  obtain ⟨definition, isSelected, rfl⟩ := Option.map_eq_some_iff.mp isParsed
  refine ⟨definition, isSelected, rfl, ?_⟩
  have isRoot : ∀ name, name ∈ definition.parsed.rootFields ↔ .field (some name) ∈ definition.selections :=
    fun name => mem_rootFields
  constructor
  · intro complete name through
    exact (isRoot name).mp ((complete name).mpr (collects_iff.mpr (.inr through)))
  · intro included name
    rw [isRoot, collects_iff]
    exact ⟨.inl, fun either => either.elim id (included name)⟩

/-- `mutation { pay ... { pay } }`. -/
def payTwice : OperationDefinition :=
  ⟨some ⟨false, true, false⟩, none, some [.field (some "pay"), .inlineFragment [.field (some "pay")]]⟩

theorem root_fields_complete_iff_repeated :
    ∃ definition, selectedOperation none [.operationDefinition payTwice] = some definition ∧
      ∀ name, name ∈ payTwice.parsed.rootFields ↔
        Collects [.operationDefinition payTwice] definition.selections name := by
  obtain ⟨definition, isSelected, isParsed, complete⟩ :=
    root_fields_complete_iff (parsing [.operationDefinition payTwice])
      "mutation \x7b pay ... \x7b pay \x7d \x7d" none payTwice.parsed rfl
  cases isSelected
  refine ⟨payTwice, rfl, complete.mpr fun name through => ?_⟩
  obtain ⟨inner, collects, reached⟩ := through
  cases reached with
  | inl member =>
    obtain rfl : inner = [.field (some "pay")] := by
      simpa [OperationDefinition.selections, payTwice] using member
    cases collects with
    | field member =>
      obtain rfl : name = "pay" := by simpa using member
      exact List.mem_cons_self
    | inlineFragment member _ | fragmentSpread member _ _ => simp at member
  | inr spread =>
    obtain ⟨fragment, member, -⟩ := spread
    simp [OperationDefinition.selections, payTwice] at member

/-- `mutation { ...Payment } fragment Payment on Mutation { pay }`. -/
def paymentDocument : List Definition :=
  [.operationDefinition ⟨some ⟨false, true, false⟩, none, some [.fragmentSpread (some "Payment")]⟩,
    .fragmentDefinition (some "Payment") (some [.field (some "pay")])]

/-- A payment behind a fragment has no root field. -/
theorem spread_field_missing :
    parseGraphqlOperationWithName (parsing paymentDocument)
      "mutation \x7b ...Payment \x7d fragment Payment on Mutation \x7b pay \x7d" none =
        .ok ⟨.mutation, none, []⟩ ∧
    (∀ definition, selectedOperation none paymentDocument = some definition →
      Collects paymentDocument definition.selections "pay") ∧
    "pay" ∉ (⟨.mutation, none, []⟩ : ParsedGraphQLOperation).rootFields := by
  refine ⟨rfl, ?_, by simp⟩
  intro definition isSelected
  cases isSelected
  exact .fragmentSpread List.mem_cons_self (List.mem_cons_of_mem _ List.mem_cons_self)
    (.field List.mem_cons_self)

end SpectraGQL.Protocol
