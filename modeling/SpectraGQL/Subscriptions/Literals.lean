import SpectraGQL.Protocol.StringValue
import SpectraGQL.Subscriptions.TopicNames

/-! # Arguments that are written out (`derive_subscription_topic` of `subscriptions/engine.rs`)

A string in a query counts as it stands there, without the quotation marks at its ends, and a
variable counts as the text it is bound to.  The two agree for strings without escapes and for
block strings that denote their own characters, and for no others.
-/

namespace SpectraGQL.Subscriptions

open SpectraGQL.Http SpectraGQL.Protocol

/-! ## Literals -/

/-- A string of a query, by the characters between its quotation marks. -/
inductive StringLiteral where
  | quoted (chars : List Char)
  | block (chars : List Char)

namespace StringLiteral

def source : StringLiteral → String
  | quoted chars => String.ofList (['"'] ++ (chars ++ ['"']))
  | block chars => String.ofList (quotes ++ (chars ++ quotes))

def Denotes : StringLiteral → String → Prop
  | quoted chars, value => QuotedText chars value.toList
  | block chars, value => ∃ raw, BlockText chars raw ∧ value.toList = blockStringValue raw

/-- There are no escapes; a block string neither begins nor ends with a quotation mark, and is its
    own value. -/
def IsPlain : StringLiteral → Prop
  | quoted chars => '\\' ∉ chars
  | block chars => (chars.head? ≠ some '"' ∧ chars.getLast? ≠ some '"') ∧
      ¬ '\\' :: quotes <:+: chars ∧ (chars = [] ∨ IsFlush chars)

end StringLiteral

/-! ## Trimming -/

section Trim

variable {opening chars closing : List Char} {value : String}

theorem toList_trimQuotes (text : String) : (trimQuotes text).toList =
    (text.toList.dropWhile (· = '"')).rdropWhile (· = '"') := String.toList_ofList

/-- Nothing that is trimmed begins or ends with a quotation mark. -/
theorem ends_trimQuotes (text : String) :
    (trimQuotes text).toList.head? ≠ some '"' ∧ (trimQuotes text).toList.getLast? ≠ some '"' := by
  rw [toList_trimQuotes]
  constructor
  · intro isQuote
    obtain ⟨rest, isPrefix⟩ := List.rdropWhile_prefix (· = '"') (text.toList.dropWhile (· = '"'))
    have front := List.head?_dropWhile_not (· = '"') text.toList
    rw [← isPrefix, List.head?_append, isQuote] at front
    simp at front
  · intro isQuote
    obtain ⟨notNil, isLast⟩ := List.mem_getLast?_eq_getLast isQuote
    have back := List.rdropWhile_last_not _ _ notNil
    rw [← isLast] at back
    simp at back

theorem trimQuotes_wrapped (opens : ∀ char ∈ opening, char = '"') (closes : ∀ char ∈ closing, char = '"')
    (front : chars.head? ≠ some '"') (back : chars.getLast? ≠ some '"') :
    (trimQuotes (String.ofList (opening ++ (chars ++ closing)))).toList = chars := by
  rw [toList_trimQuotes, String.toList_ofList, List.dropWhile_append_of_pos (by simpa using opens)]
  have closed : (chars ++ closing).rdropWhile (· = '"') = chars := by
    rw [List.rdropWhile, List.reverse_append, List.dropWhile_append_of_pos (by simpa using closes),
      ← List.rdropWhile, List.rdropWhile_eq_self_iff]
    intro notNil isQuote
    rw [decide_eq_true_eq] at isQuote
    exact back (by rw [List.getLast?_eq_getLast_of_ne_nil notNil, isQuote])
  cases chars with
  | nil =>
    have nothing : closing.dropWhile (· = '"') = [] := List.dropWhile_eq_nil_iff.mpr (by simpa using closes)
    simp [nothing]
  | cons first rest =>
    have notQuote : first ≠ '"' := by simpa using front
    rwa [List.cons_append, List.dropWhile_cons_of_neg (by simpa using notQuote)]

/-- What a literal is trimmed to is its value only if it was trimmed of its quotation marks alone. -/
theorem trimQuotes_eq_iff (opens : ∀ char ∈ opening, char = '"') (closes : ∀ char ∈ closing, char = '"')
    (front : chars.head? = some '"' → value.toList.head? = some '"')
    (back : chars.getLast? = some '"' → value.toList.getLast? = some '"') :
    trimQuotes (String.ofList (opening ++ (chars ++ closing))) = value ↔
      (chars.head? ≠ some '"' ∧ chars.getLast? ≠ some '"') ∧ value.toList = chars := by
  constructor
  · intro same
    have ends := ends_trimQuotes (String.ofList (opening ++ (chars ++ closing)))
    have isChars := trimQuotes_wrapped opens closes (fun isQuote => ends.1 (same ▸ front isQuote))
      fun isQuote => ends.2 (same ▸ back isQuote)
    rw [same] at ends isChars
    exact ⟨⟨fun isQuote => ends.1 (front isQuote), fun isQuote => ends.2 (back isQuote)⟩, isChars⟩
  · intro plain
    rw [← String.toList_inj, trimQuotes_wrapped opens closes plain.1.1 plain.1.2, plain.2]

end Trim

/-- A literal is trimmed to the text it denotes exactly if it is plain. -/
theorem StringLiteral.trimQuotes_source_iff {literal : StringLiteral} {value : String}
    (denotes : literal.Denotes value) : trimQuotes literal.source = value ↔ literal.IsPlain := by
  cases literal with
  | quoted chars =>
    have text : QuotedText chars value.toList := denotes
    rw [source, trimQuotes_eq_iff (by simp) (by simp) (fun isQuote => absurd isQuote text.head_ne_quote)
      text.last_quote, text.eq_iff, IsPlain]
    constructor
    · exact fun plain => plain.2
    · intro unescaped
      refine ⟨⟨text.head_ne_quote, fun isQuote => ?_⟩, unescaped⟩
      exact text.quote_not_mem unescaped (List.mem_of_getLast? isQuote)
  | block chars =>
    obtain ⟨raw, text, isValue⟩ := denotes
    -- the quotes that are trimmed besides the delimiters are those of the value
    have front : chars.head? = some '"' → value.toList.head? = some '"' := by
      intro isQuote
      obtain ⟨rest, rfl⟩ := List.head?_eq_some_iff.mp (text.head isQuote)
      rw [isValue, head_blockStringValue (by decide) (by decide) (by decide)]
    have back : chars.getLast? = some '"' → value.toList.getLast? = some '"' := by
      intro isQuote
      obtain ⟨rest, rfl⟩ := List.getLast?_eq_some_iff.mp (text.last isQuote)
      rw [isValue, getLast_blockStringValue (by decide) (by decide) (by decide)]
    rw [source, trimQuotes_eq_iff (by simp [quotes]) (by simp [quotes]) front back, IsPlain, isValue,
      and_congr_right_iff]
    intro _
    constructor
    · intro same
      have unescaped : ¬ '\\' :: quotes <:+: chars := by
        -- an escape is longer than its quotes, and a value never longer than its text
        intro escapes
        have shorter := text.length_lt escapes
        have value := length_blockStringValue_le raw
        rw [same] at value
        omega
      rw [text.eq_of_unescaped unescaped] at same
      exact ⟨unescaped, blockStringValue_eq_self_iff.mp same⟩
    · intro plain
      rw [text.eq_of_unescaped plain.1]
      exact blockStringValue_eq_self_iff.mpr plain.2

/-! ## Subscriptions -/

/-- The argument that is the primary one. -/
def primaryNode (vars : Option Json) (arguments : List ArgumentNode) : Option ArgumentNode :=
  (arguments.find? fun argument => (argument.identifier vars).isSome) <|>
    arguments.find? fun argument => (argumentText vars argument.value).isSome

theorem head?_filterMap_of_find? {α β : Type} {pick : α → Option β} {items : List α} {item : α}
    (found : (items.find? fun item => (pick item).isSome) = some item) :
    (items.filterMap pick).head? = pick item := by
  obtain ⟨isPicked, earlier, later, rfl, notEarlier⟩ := List.find?_eq_some_iff_append.mp found
  have none : earlier.filterMap pick = [] := by
    rw [List.filterMap_eq_nil_iff]
    simpa using notEarlier
  obtain ⟨value, picked⟩ := Option.isSome_iff_exists.mp isPicked
  rw [List.filterMap_append, none, List.nil_append, List.filterMap_cons_some picked, List.head?_cons, picked]

/-- Its value is what narrows the topic down. -/
theorem primaryArgument_of_node {vars : Option Json} {arguments : List ArgumentNode} {node : ArgumentNode}
    (isPrimary : primaryNode vars arguments = some node) :
    primaryArgument vars none arguments = argumentText vars node.value := by
  rw [primaryArgument_eq]
  unfold primaryNode at isPrimary
  cases identifies : arguments.find? fun argument => (argument.identifier vars).isSome with
  | some first =>
    rw [identifies] at isPrimary
    obtain rfl : first = node := Option.some.inj isPrimary
    have isIdentifier := List.find?_some identifies
    rw [head?_filterMap_of_find? identifies]
    unfold ArgumentNode.identifier at isIdentifier ⊢
    split at isIdentifier
    · rename_i isNamed
      obtain ⟨value, isValue⟩ := Option.isSome_iff_exists.mp isIdentifier
      rw [if_pos isNamed, isValue]
      rfl
    · cases isIdentifier
  | none =>
    have noIdentifier : arguments.filterMap (ArgumentNode.identifier vars) = [] := by
      rw [List.filterMap_eq_nil_iff]
      simpa using List.find?_eq_none.mp identifies
    rw [identifies] at isPrimary
    rw [noIdentifier]
    exact head?_filterMap_of_find? isPrimary

/-- A query with a literal as its primary argument has the topic of one with a variable that is
    bound to the text of the literal exactly if the literal is plain. -/
theorem literal_topic_iff {parse : String → SubscriptionDocument}
    {topicPrefix literalQuery variableQuery literalTopic variableTopic rootField : String}
    {literalVars variableVars : Option Json} {literal : StringLiteral} {value varName : String}
    {literalName variableName : Option String}
    (literalDerived : deriveSubscriptionTopic parse topicPrefix literalQuery literalVars =
      .ok (literalTopic, rootField))
    (variableDerived : deriveSubscriptionTopic parse topicPrefix variableQuery variableVars =
      .ok (variableTopic, rootField))
    (isLiteral : primaryNode literalVars (parse literalQuery).rootArguments =
      some ⟨literalName, some (.string literal.source)⟩)
    (isVariable : primaryNode variableVars (parse variableQuery).rootArguments =
      some ⟨variableName, some (.variable (some varName))⟩)
    (denotes : literal.Denotes value)
    (bound : (variableVars.bind fun vars => vars.get varName) = some (.string value)) :
    literalTopic = variableTopic ↔ literal.IsPlain := by
  obtain ⟨-, -, isLiteralTopic⟩ := deriveSubscriptionTopic_eq_ok literalDerived
  obtain ⟨-, -, isVariableTopic⟩ := deriveSubscriptionTopic_eq_ok variableDerived
  rw [primaryArgument_of_node isLiteral, argumentText] at isLiteralTopic
  rw [primaryArgument_of_node isVariable, argumentText, variableText, Option.getD_some, bound] at isVariableTopic
  rw [isLiteralTopic, isVariableTopic, ← StringLiteral.trimQuotes_source_iff denotes]
  simp [fieldTopic]

/-- A plain literal. -/
theorem literal_topic_iff_plain :
    "spectra.events.orderupdates.42" = "spectra.events.orderupdates.42" ↔
      (StringLiteral.quoted ['4', '2']).IsPlain := by
  have denotes : (StringLiteral.quoted ['4', '2']).Denotes "42" :=
    .character (by decide) (by decide) rfl (.character (by decide) (by decide) rfl .nil)
  have literalDerived : deriveSubscriptionTopic parseOrders "spectra" literalQuery none =
      .ok ("spectra.events.orderupdates.42", "orderUpdates") := rfl
  have variableDerived : deriveSubscriptionTopic parseOrders "spectra" variableQuery
      (some (.object [("id", .string "42")])) =
      .ok ("spectra.events.orderupdates.42", "orderUpdates") := rfl
  have isLiteral : primaryNode none (parseOrders literalQuery).rootArguments =
      some ⟨some "id", some (.string (StringLiteral.quoted ['4', '2']).source)⟩ := rfl
  have isVariable : primaryNode (some (.object [("id", .string "42")]))
      (parseOrders variableQuery).rootArguments = some ⟨some "id", some (.variable (some "id"))⟩ := rfl
  exact literal_topic_iff literalDerived variableDerived isLiteral isVariable denotes rfl

/-! ## An escaped quotation mark -/

def escapedLiteral : StringLiteral := .quoted ['a', '\\', '"', 'b']

def escapedQuery : String :=
  "subscription \x7b orderUpdates(id: \"a\\\"b\") \x7b status \x7d \x7d"

/-- A parser that knows this query too. -/
def parseEscaped (query : String) : SubscriptionDocument :=
  if query = escapedQuery then
    subscriptionTo "orderUpdates" [⟨some "id", some (.string escapedLiteral.source)⟩]
  else parseOrders query

/-- The topic of the literal has its backslash. -/
theorem escaped_literal_differs :
    escapedLiteral.Denotes "a\"b" ∧
    deriveSubscriptionTopic parseEscaped "spectra" escapedQuery none =
      .ok ("spectra.events.orderupdates.a\\\"b", "orderUpdates") ∧
    deriveSubscriptionTopic parseEscaped "spectra" variableQuery
        (some (.object [("id", .string "a\"b")])) =
      .ok ("spectra.events.orderupdates.a\"b", "orderUpdates") ∧
    "spectra.events.orderupdates.a\\\"b" ≠ "spectra.events.orderupdates.a\"b" :=
  ⟨.character (by decide) (by decide) rfl (.escaped rfl (.character (by decide) (by decide) rfl .nil)),
    rfl, rfl, by decide⟩

end SpectraGQL.Subscriptions
