import SpectraGQL.Data.Grammar
import SpectraGQL.Data.Tokenizer

/-! # The syntax of GraphQL documents

The lexical and the syntactic grammar of the language (October 2021): executable documents,
type systems and their extensions.
-/

namespace SpectraGQL.Protocol

open Data

/-! ## Characters -/

def isSourceCharacter (char : Char) : Bool :=
  char == '\t' || char == '\n' || char == '\r' || (0x20 ≤ char.toNat && char.toNat ≤ 0xffff)

def isLineTerminator (char : Char) : Bool := char == '\n' || char == '\r'

/-- Byte order marks, white space, line terminators and commas. -/
def isIgnored (char : Char) : Bool :=
  char == '\ufeff' || char == '\t' || char == ' ' || isLineTerminator char || char == ','

def isCommentCharacter (char : Char) : Bool := isSourceCharacter char && !isLineTerminator char

/-- The punctuators of one character. -/
def isPunctuator (char : Char) : Bool :=
  ['!', '$', '&', '(', ')', ':', '=', '@', '[', ']', '\x7b', '|', '\x7d'].contains char

def isLetter (char : Char) : Bool :=
  (65 ≤ char.toNat && char.toNat ≤ 90) || (97 ≤ char.toNat && char.toNat ≤ 122)

def isDigit (char : Char) : Bool := 48 ≤ char.toNat && char.toNat ≤ 57

def isNameStart (char : Char) : Bool := isLetter char || char == '_'

def isNameContinue (char : Char) : Bool := isNameStart char || isDigit char

def isExponentIndicator (char : Char) : Bool := char == 'e' || char == 'E'

def isHexDigit (char : Char) : Bool :=
  isDigit char || (65 ≤ char.toNat && char.toNat ≤ 70) || (97 ≤ char.toNat && char.toNat ≤ 102)

/-- What stands after the backslash in an escaped character. -/
def isEscapedCharacter (char : Char) : Bool :=
  ['"', '\\', '/', 'b', 'f', 'n', 'r', 't'].contains char

/-! ## Lexemes -/

inductive LexemeKind where
  | ignored | comment | punctuator | name | int | float | string | blockString
deriving DecidableEq, Repr

def LexemeKind.isString : LexemeKind → Bool
  | string | blockString => true
  | ignored | comment | punctuator | name | int | float => false

/-- Where a lexeme is. -/
inductive Mode where
  | start
  | ignored
  | comment
  | punctuator
  | oneDot
  | twoDots
  | name
  | minus
  | zero
  | digits
  | point
  | fraction
  | exponent
  | exponentSign
  | exponentDigits
  /-- After the quote that starts a string. -/
  | quote
  /-- After two quotes. -/
  | emptyString
  | characters
  /-- After a backslash. -/
  | escape
  /-- In an escape that needs some more digits. -/
  | unicode (digits : Nat)
  | stringEnd
  /-- In a block string, after quotes that a backslash may stand before. -/
  | block (escaped : Bool) (quotes : Nat)
  | blockEnd
deriving DecidableEq, Repr

/-- The first character of a lexeme. -/
def startStep (char : Char) : Option Mode :=
  if isIgnored char then some .ignored
  else if char == '#' then some .comment
  else if char == '"' then some .quote
  else if char == '.' then some .oneDot
  else if isPunctuator char then some .punctuator
  else if isNameStart char then some .name
  else if char == '-' then some .minus
  else if char == '0' then some .zero
  else if isDigit char then some .digits
  else none

/-- A character of a string that no backslash stands before. -/
def characterStep (close : Mode) (char : Char) : Option Mode :=
  if char == '"' then some close
  else if char == '\\' then some .escape
  else if isCommentCharacter char then some .characters
  else none

/-- A character of a block string; three quotes end it unless they are escaped. -/
def blockStep (escaped : Bool) (quotes : Nat) (char : Char) : Option Mode :=
  if char == '"' then
    if quotes == 2 then some (if escaped then .block false 0 else .blockEnd)
    else some (.block escaped (quotes + 1))
  else if char == '\\' then some (.block true 0)
  else if isSourceCharacter char then some (.block false 0)
  else none

def lexStep : Mode → Char → Option Mode
  | .start, char => startStep char
  | .comment, char => if isCommentCharacter char then some .comment else none
  | .oneDot, char => if char == '.' then some .twoDots else none
  | .twoDots, char => if char == '.' then some .punctuator else none
  | .name, char => if isNameContinue char then some .name else none
  | .minus, char =>
    if char == '0' then some .zero else if isDigit char then some .digits else none
  | .zero, char =>
    if char == '.' then some .point else if isExponentIndicator char then some .exponent else none
  | .digits, char =>
    if isDigit char then some .digits
    else if char == '.' then some .point
    else if isExponentIndicator char then some .exponent
    else none
  | .point, char => if isDigit char then some .fraction else none
  | .fraction, char =>
    if isDigit char then some .fraction else if isExponentIndicator char then some .exponent else none
  | .exponent, char =>
    if isDigit char then some .exponentDigits
    else if char == '+' || char == '-' then some .exponentSign
    else none
  | .exponentSign, char => if isDigit char then some .exponentDigits else none
  | .exponentDigits, char => if isDigit char then some .exponentDigits else none
  | .quote, char => characterStep .emptyString char
  | .emptyString, char => if char == '"' then some (.block false 0) else none
  | .characters, char => characterStep .stringEnd char
  | .escape, char =>
    if isEscapedCharacter char then some .characters else if char == 'u' then some (.unicode 4) else none
  | .unicode digits, char =>
    if isHexDigit char then some (if digits ≤ 1 then .characters else .unicode (digits - 1)) else none
  | .block escaped quotes, char => blockStep escaped quotes char
  | .ignored, _ | .punctuator, _ | .stringEnd, _ | .blockEnd, _ => none

/-- The lexeme that may end there. -/
def lexemeKind : Mode → Option LexemeKind
  | .ignored => some .ignored
  | .comment => some .comment
  | .punctuator => some .punctuator
  | .name => some .name
  | .zero | .digits => some .int
  | .fraction | .exponentDigits => some .float
  | .emptyString | .stringEnd => some .string
  | .blockEnd => some .blockString
  | .start | .oneDot | .twoDots | .minus | .point | .exponent | .exponentSign | .quote | .characters
  | .escape | .unicode _ | .block _ _ => none

/-- The lookahead restrictions: names, numbers and comments are as long as they can be, a
    number is not followed by a name, and two quotes not by a third. -/
def lexForbids : Mode → Char → Bool
  | .comment, char => isCommentCharacter char
  | .name, char => isNameContinue char
  | .zero, char | .digits, char | .fraction, char | .exponentDigits, char =>
    isDigit char || char == '.' || isNameStart char
  | .emptyString, char => char == '"'
  | .start, _ | .ignored, _ | .punctuator, _ | .oneDot, _ | .twoDots, _ | .minus, _ | .point, _
  | .exponent, _ | .exponentSign, _ | .quote, _ | .characters, _ | .escape, _ | .unicode _, _
  | .stringEnd, _ | .block _ _, _ | .blockEnd, _ => false

theorem isNameStart_of_exponent {char : Char} (isExponent : isExponentIndicator char = true) :
    isNameStart char = true := by
  simp only [isExponentIndicator, Bool.or_eq_true, beq_iff_eq] at isExponent
  cases isExponent with
  | inl isLower => exact isLower ▸ rfl
  | inr isUpper => exact isUpper ▸ rfl

theorem lexForbids_of_step {mode next : Mode} {char : Char} {kind : LexemeKind}
    (isKind : lexemeKind mode = some kind) (stepped : lexStep mode char = some next) :
    lexForbids mode char = true := by
  cases mode with
  | comment | name | emptyString =>
    simp only [lexStep, Option.ite_none_right_eq_some] at stepped
    exact stepped.1
  | zero | digits | fraction | exponentDigits =>
    simp only [lexForbids, Bool.or_eq_true]
    by_contra isNone
    simp only [not_or, Bool.not_eq_true] at isNone
    obtain ⟨⟨notDigit, notPoint⟩, notStart⟩ := isNone
    have notExponent : isExponentIndicator char = false := by
      cases isExponent : isExponentIndicator char with
      | false => rfl
      | true => exact absurd (isNameStart_of_exponent isExponent) (by simp [notStart])
    simp [lexStep, notDigit, notPoint, notExponent] at stepped
  | ignored | punctuator | stringEnd | blockEnd => cases stepped
  | _ => cases isKind

def lexer : Tokenizer Char Mode LexemeKind where
  start := .start
  step := lexStep
  kind := lexemeKind
  forbids := lexForbids
  start_not_kind := rfl
  forbids_step := lexForbids_of_step

/-- A lexeme of a document. -/
abbrev Word := Lexeme Char LexemeKind

/-- Tokens are the lexemes that the grammar sees. -/
def Word.isToken (word : Word) : Bool :=
  match word.kind with
  | .ignored | .comment => false
  | .punctuator | .name | .int | .float | .string | .blockString => true

/-! ## Documents -/

inductive Terminal where
  | punctuator (text : String)
  | keyword (text : String)
  | name
  | nameExcept (texts : List String)
  | int
  | float
  | string
deriving DecidableEq

def Terminal.accepts (terminal : Terminal) (token : Word) : Bool :=
  match terminal with
  | .punctuator text => token.kind == .punctuator && token.text == text.toList
  | .keyword text => token.kind == .name && token.text == text.toList
  | .name => token.kind == .name
  | .nameExcept texts => token.kind == .name && !texts.contains (String.ofList token.text)
  | .int => token.kind == .int
  | .float => token.kind == .float
  | .string => token.kind.isString

/-- The rules of the grammar; in a constant there are no variables. -/
inductive Rule where
  | document | definition | operationDefinition | operationType | optionalName
  | selectionSet | selection | field | fieldAlias | arguments (isConst : Bool) | argument (isConst : Bool)
  | fragmentSpread | inlineFragment | fragmentDefinition | fragmentName | typeCondition
  | value (isConst : Bool) | listValue (isConst : Bool) | objectValue (isConst : Bool)
  | objectField (isConst : Bool)
  | variable | variableDefinitions | variableDefinition | defaultValue
  | type | namedType | listType | nonNullType
  | directives (isConst : Bool) | directive (isConst : Bool)
  | typeSystemDefinition | typeSystemExtension
  | schemaDefinition | rootOperationTypeDefinition | schemaExtension | description
  | scalarTypeDefinition | scalarTypeExtension
  | objectTypeDefinition | objectTypeExtension | interfaceTypeDefinition | interfaceTypeExtension
  | implementsInterfaces | ampersand | furtherInterface
  | fieldsDefinition | fieldDefinition | argumentsDefinition | inputValueDefinition
  | unionTypeDefinition | unionTypeExtension | unionMemberTypes | bar | furtherMember
  | enumTypeDefinition | enumTypeExtension | enumValuesDefinition | enumValueDefinition | enumValue
  | inputObjectTypeDefinition | inputObjectTypeExtension | inputFieldsDefinition
  | directiveDefinition | repeatable | directiveLocations | directiveLocation | furtherLocation
deriving DecidableEq

section

open GrammarSymbol Terminal Rule

/-- What the type definitions of one keyword have in common: a body may be left out where no
    brace follows. -/
def typeDefinition (word : String) (heads : List (GrammarSymbol Terminal Rule)) (body : Rule) :
    List (List (GrammarSymbol Terminal Rule)) :=
  [[optional description, terminal (keyword word), terminal name] ++ heads ++
      [optional (directives true), one body],
    [optional description, terminal (keyword word), terminal name] ++ heads ++
      [optional (directives true), notBefore (punctuator "\x7b")]]

/-- What extends a type. -/
def typeExtension (word : String) (heads : List (GrammarSymbol Terminal Rule)) (body : Rule) :
    List (List (GrammarSymbol Terminal Rule)) :=
  [[terminal (keyword "extend"), terminal (keyword word), terminal name] ++ heads ++
      [optional (directives true), one body],
    [terminal (keyword "extend"), terminal (keyword word), terminal name] ++ heads ++
      [one (directives true), notBefore (punctuator "\x7b")]]

/-- Elements between braces. -/
def braces (element : Rule) : List (GrammarSymbol Terminal Rule) :=
  [terminal (punctuator "\x7b"), several element, terminal (punctuator "\x7d")]

def parentheses (element : Rule) : List (GrammarSymbol Terminal Rule) :=
  [terminal (punctuator "("), several element, terminal (punctuator ")")]

/-- A name before what it names. -/
def named (rule : Rule) : List (GrammarSymbol Terminal Rule) :=
  [terminal name, terminal (punctuator ":"), one rule]

/-- The names of the places where a directive may stand. -/
def directiveLocationNames : List String :=
  ["QUERY", "MUTATION", "SUBSCRIPTION", "FIELD", "FRAGMENT_DEFINITION", "FRAGMENT_SPREAD",
    "INLINE_FRAGMENT", "VARIABLE_DEFINITION", "SCHEMA", "SCALAR", "OBJECT", "FIELD_DEFINITION",
    "ARGUMENT_DEFINITION", "INTERFACE", "UNION", "ENUM", "ENUM_VALUE", "INPUT_OBJECT",
    "INPUT_FIELD_DEFINITION"]

def productions : Rule → List (List (GrammarSymbol Terminal Rule))
  | document => [[several definition]]
  | definition =>
    [[one operationDefinition], [one fragmentDefinition], [one typeSystemDefinition],
      [one typeSystemExtension]]
  | operationDefinition =>
    [[one selectionSet],
      [one operationType, optional optionalName, optional variableDefinitions,
        optional (directives false), one selectionSet]]
  | operationType =>
    [[terminal (keyword "query")], [terminal (keyword "mutation")], [terminal (keyword "subscription")]]
  | optionalName => [[terminal name]]
  | selectionSet => [braces selection]
  | selection => [[one field], [one fragmentSpread], [one inlineFragment]]
  | field =>
    [[optional fieldAlias, terminal name, optional (arguments false), optional (directives false),
      optional selectionSet]]
  | fieldAlias => [[terminal name, terminal (punctuator ":")]]
  | arguments isConst => [parentheses (argument isConst)]
  | argument isConst => [named (value isConst)]
  | fragmentSpread =>
    [[terminal (punctuator "..."), one fragmentName, optional (directives false)]]
  | inlineFragment =>
    [[terminal (punctuator "..."), optional typeCondition, optional (directives false), one selectionSet]]
  | fragmentDefinition =>
    [[terminal (keyword "fragment"), one fragmentName, one typeCondition, optional (directives false),
      one selectionSet]]
  | fragmentName => [[terminal (nameExcept ["on"])]]
  | typeCondition => [[terminal (keyword "on"), one namedType]]
  | value isConst =>
    (if isConst then [] else [[one Rule.variable]]) ++
      [[terminal int], [terminal float], [terminal string],
        [terminal (keyword "true")], [terminal (keyword "false")], [terminal (keyword "null")],
        [terminal (nameExcept ["true", "false", "null"])],
        [one (listValue isConst)], [one (objectValue isConst)]]
  | listValue isConst =>
    [[terminal (punctuator "["), terminal (punctuator "]")],
      [terminal (punctuator "["), several (value isConst), terminal (punctuator "]")]]
  | objectValue isConst =>
    [[terminal (punctuator "\x7b"), terminal (punctuator "\x7d")], braces (objectField isConst)]
  | objectField isConst => [named (value isConst)]
  | Rule.variable => [[terminal (punctuator "$"), terminal name]]
  | variableDefinitions => [parentheses variableDefinition]
  | variableDefinition =>
    [[one Rule.variable, terminal (punctuator ":"), one type, optional defaultValue,
      optional (directives true)]]
  | defaultValue => [[terminal (punctuator "="), one (value true)]]
  | type => [[one namedType], [one listType], [one nonNullType]]
  | namedType => [[terminal name]]
  | listType => [[terminal (punctuator "["), one type, terminal (punctuator "]")]]
  | nonNullType =>
    [[one namedType, terminal (punctuator "!")], [one listType, terminal (punctuator "!")]]
  | directives isConst => [[several (directive isConst)]]
  | directive isConst => [[terminal (punctuator "@"), terminal name, optional (arguments isConst)]]
  | typeSystemDefinition =>
    [[one schemaDefinition], [one scalarTypeDefinition], [one objectTypeDefinition],
      [one interfaceTypeDefinition], [one unionTypeDefinition], [one enumTypeDefinition],
      [one inputObjectTypeDefinition], [one directiveDefinition]]
  | typeSystemExtension =>
    [[one schemaExtension], [one scalarTypeExtension], [one objectTypeExtension],
      [one interfaceTypeExtension], [one unionTypeExtension], [one enumTypeExtension],
      [one inputObjectTypeExtension]]
  | schemaDefinition =>
    [[optional description, terminal (keyword "schema"), optional (directives true)] ++
      braces rootOperationTypeDefinition]
  | rootOperationTypeDefinition =>
    [[one operationType, terminal (punctuator ":"), one namedType]]
  | schemaExtension =>
    [[terminal (keyword "extend"), terminal (keyword "schema"), optional (directives true)] ++
        braces rootOperationTypeDefinition,
      [terminal (keyword "extend"), terminal (keyword "schema"), one (directives true),
        notBefore (punctuator "\x7b")]]
  | description => [[terminal string]]
  | scalarTypeDefinition =>
    [[optional description, terminal (keyword "scalar"), terminal name, optional (directives true)]]
  | scalarTypeExtension =>
    [[terminal (keyword "extend"), terminal (keyword "scalar"), terminal name, one (directives true)]]
  | objectTypeDefinition => typeDefinition "type" [optional implementsInterfaces] fieldsDefinition
  | objectTypeExtension =>
    typeExtension "type" [optional implementsInterfaces] fieldsDefinition ++
      [[terminal (keyword "extend"), terminal (keyword "type"), terminal name, one implementsInterfaces,
        notBefore (punctuator "\x7b")]]
  | interfaceTypeDefinition =>
    typeDefinition "interface" [optional implementsInterfaces] fieldsDefinition
  | interfaceTypeExtension =>
    typeExtension "interface" [optional implementsInterfaces] fieldsDefinition ++
      [[terminal (keyword "extend"), terminal (keyword "interface"), terminal name,
        one implementsInterfaces, notBefore (punctuator "\x7b")]]
  | implementsInterfaces =>
    [[terminal (keyword "implements"), optional ampersand, one namedType],
      [terminal (keyword "implements"), optional ampersand, one namedType, several furtherInterface]]
  | ampersand => [[terminal (punctuator "&")]]
  | furtherInterface => [[terminal (punctuator "&"), one namedType]]
  | fieldsDefinition => [braces fieldDefinition]
  | fieldDefinition =>
    [[optional description, terminal name, optional argumentsDefinition, terminal (punctuator ":"),
      one type, optional (directives true)]]
  | argumentsDefinition => [parentheses inputValueDefinition]
  | inputValueDefinition =>
    [[optional description] ++ named type ++ [optional defaultValue, optional (directives true)]]
  | unionTypeDefinition =>
    [[optional description, terminal (keyword "union"), terminal name, optional (directives true),
      optional unionMemberTypes]]
  | unionTypeExtension =>
    [[terminal (keyword "extend"), terminal (keyword "union"), terminal name,
        optional (directives true), one unionMemberTypes],
      [terminal (keyword "extend"), terminal (keyword "union"), terminal name, one (directives true)]]
  | unionMemberTypes =>
    [[terminal (punctuator "="), optional bar, one namedType],
      [terminal (punctuator "="), optional bar, one namedType, several furtherMember]]
  | bar => [[terminal (punctuator "|")]]
  | furtherMember => [[terminal (punctuator "|"), one namedType]]
  | enumTypeDefinition => typeDefinition "enum" [] enumValuesDefinition
  | enumTypeExtension => typeExtension "enum" [] enumValuesDefinition
  | enumValuesDefinition => [braces enumValueDefinition]
  | enumValueDefinition => [[optional description, one enumValue, optional (directives true)]]
  | enumValue => [[terminal (nameExcept ["true", "false", "null"])]]
  | inputObjectTypeDefinition => typeDefinition "input" [] inputFieldsDefinition
  | inputObjectTypeExtension => typeExtension "input" [] inputFieldsDefinition
  | inputFieldsDefinition => [braces inputValueDefinition]
  | directiveDefinition =>
    [[optional description, terminal (keyword "directive"), terminal (punctuator "@"), terminal name,
      optional argumentsDefinition, optional repeatable, terminal (keyword "on"),
      one directiveLocations]]
  | repeatable => [[terminal (keyword "repeatable")]]
  | directiveLocations =>
    [[optional bar, one directiveLocation], [optional bar, one directiveLocation, several furtherLocation]]
  | directiveLocation => directiveLocationNames.map fun word => [terminal (keyword word)]
  | furtherLocation => [[terminal (punctuator "|"), one directiveLocation]]

end

def graphql : Grammar Terminal Word Rule := ⟨Terminal.accepts, productions⟩

/-- A derivation tree of a document, and the trees beside it. -/
abbrev DerivationTree := Forest Word Rule

/-- The text is a syntactically valid document, of that structure. -/
def Parses (document : String) (tree : DerivationTree) : Prop :=
  ∃ words, lexer.Reads document.toList words ∧ tree.yield = words.filter Word.isToken ∧
    graphql.Fits [.one .document] tree []

end SpectraGQL.Protocol
