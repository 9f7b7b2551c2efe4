import SpectraGQL.Interceptors.LiteralLexemes

/-! # Sanitized documents (`interceptors/sanitizer.rs`, `sanitize_gql_query_str`)

Where no match of either expression runs over the end of a lexeme, but for a name and the plain
string after it, the lexemes of a document are rewritten one by one (`exists_literalLexemes`) and the
document keeps its structure (`sanitizeGqlQueryStr_parses`).  An escaped quotation mark is enough to
break it (`escaped_quote_ends_literal`).
-/

namespace SpectraGQL.Interceptors

open Data SpectraGQL.Http SpectraGQL.Protocol

/-! ## Documents whose matches stay in lexemes -/

def colon : Word := ⟨.punctuator, [':']⟩

/-- A plain string. -/
def quoted (body : List Char) : Word := ⟨.string, '"' :: (body ++ ['"'])⟩

def IsBlank (word : Word) : Prop := word.kind = .ignored ∧ ∀ char ∈ word.text, isWhitespace char = true

/-- No match of either expression runs over the end of a lexeme, but for a name and the plain string
    after it. -/
inductive Confined : List Word → Prop
  | nil : Confined []
  | lexeme {word : Word} {words : List Word} : LiteralsInside word (textOf words) →
    BearersInside word (textOf words) → Confined words → Confined (word :: words)
  | argument {before key body : List Char} {blanks spaces words : List Word} : literalKey.Matches key →
    (∀ blank ∈ blanks, IsBlank blank) → (∀ space ∈ spaces, IsBlank space) → '"' ∉ body →
    NoMatch findLiteral (key ++ textOf (blanks ++ colon :: (spaces ++ quoted body :: words))) before →
    Confined words →
    Confined (⟨.name, before ++ key⟩ :: (blanks ++ colon :: (spaces ++ quoted body :: words)))

theorem Confined.plain {word : Word} {words : List Word}
    (isPlain : (word.kind.isString || word.kind == .comment) = false)
    (literals : NoMatch findLiteral (textOf words) word.text) (bearers : NoMatch findBearer (textOf words) word.text)
    (confined : Confined words) : Confined (word :: words) := by
  obtain ⟨kind, text⟩ := word
  cases kind with
  | ignored | punctuator | name | int | float => exact .lexeme literals bearers confined
  | comment | string | blockString => cases isPlain

/-! ## Strings that are taken for literals -/

/-- What was read before a lexeme, as far as a literal may come next. -/
inductive Place where
  | elsewhere
  /-- A name that ends with one of the expression. -/
  | named
  /-- A colon after that. -/
  | colon
deriving DecidableEq

def endsWithKey (name : List Char) : Bool := name.tails.any fun key => (literalKey.ends key).contains []

/-- White space is passed over, but no comma and no comment. -/
def Place.next (place : Place) (word : Word) : Place :=
  match word.kind with
  | .ignored => if word.text.all isWhitespace then place else .elsewhere
  | .name => if endsWithKey word.text then .named else .elsewhere
  | .punctuator => if place = .named ∧ word.text = [':'] then .colon else .elsewhere
  | .comment | .int | .float | .string | .blockString => .elsewhere

/-- The tokens of a document, and of each whether the first expression takes it for a literal. -/
def literalTokens : Place → List Word → List (Word × Bool)
  | _, [] => []
  | place, word :: words =>
    if word.isToken then
      (word, place = .colon && word.kind = .string) :: literalTokens (place.next word) words
    else literalTokens (place.next word) words

/-- What the first expression makes of a token. -/
def withoutLiterals (token : Word × Bool) : Word :=
  if token.2 then quoted redactedPlaceholder.toList
  else if token.1.kind = .blockString then ⟨.blockString, replaceAll findLiteral token.1.text⟩
  else token.1

section Lexemes

variable {place : Place} {word : Word} {words : List Word} {rest : List Char}

/-- Where the place promises a literal, there is none. -/
def Unfollowed (place : Place) (text : List Char) : Prop :=
  match place with
  | .elsewhere => True
  | .named => literalNext text = false
  | .colon => quotedNext text = false

theorem endsWithKey_iff {name : List Char} :
    endsWithKey name = true ↔ ∃ before key, name = before ++ key ∧ literalKey.Matches key := by
  simp only [endsWithKey, List.any_eq_true, List.mem_tails, List.contains_iff_mem, Regex.mem_ends]
  constructor
  · rintro ⟨key, ⟨before, isName⟩, taken, isKey, isTaken⟩
    rw [List.append_nil] at isTaken
    exact ⟨before, key, isName.symm, isTaken ▸ isKey⟩
  · rintro ⟨before, key, rfl, isKey⟩
    exact ⟨key, List.suffix_append before key, key, isKey, (List.append_nil key).symm⟩

theorem literalNext_blanks {blanks : List Char} (areBlank : ∀ char ∈ blanks, isWhitespace char = true) :
    literalNext (blanks ++ rest) = literalNext rest ∧ quotedNext (blanks ++ rest) = quotedNext rest := by
  induction blanks with
  | nil => exact ⟨rfl, rfl⟩
  | cons blank blanks inductionHypothesis =>
    obtain ⟨isBlank, areBlank⟩ := List.forall_mem_cons.mp areBlank
    simpa [literalNext, quotedNext, isBlank] using inductionHypothesis areBlank

/-- A lexeme in which no literal begins leaves none to come. -/
theorem Unfollowed.next (unfollowed : Unfollowed place (word.text ++ rest)) (literals : LiteralsInside word rest) :
    Unfollowed (place.next word) rest := by
  obtain ⟨kind, text⟩ := word
  cases kind with
  | comment | int | float | string | blockString => trivial
  | ignored =>
    by_cases areBlank : text.all isWhitespace = true
    · have blanks := @literalNext_blanks rest text (List.all_eq_true.mp areBlank)
      have same : place.next ⟨.ignored, text⟩ = place := if_pos areBlank
      rw [same]
      cases place with
      | elsewhere => trivial
      | named => exact blanks.1.symm.trans unfollowed
      | colon => exact blanks.2.symm.trans unfollowed
    · have elsewhere : place.next ⟨.ignored, text⟩ = .elsewhere := if_neg areBlank
      rw [elsewhere]
      trivial
  | punctuator =>
    by_cases isColon : place = .named ∧ text = [':']
    · have next : place.next ⟨.punctuator, text⟩ = .colon := if_pos isColon
      obtain ⟨rfl, rfl⟩ := isColon
      rw [next]
      exact unfollowed
    · have elsewhere : place.next ⟨.punctuator, text⟩ = .elsewhere := if_neg isColon
      rw [elsewhere]
      trivial
  | name =>
    by_cases ends : endsWithKey text = true
    · have next : place.next ⟨.name, text⟩ = .named := if_pos ends
      rw [next]
      obtain ⟨before, key, rfl, isKey⟩ := endsWithKey_iff.mp ends
      have none : findLiteral (key ++ rest) = none := literals before key rfl (isKeyChar_of_literalKey isKey).1
      -- a literal behind this name would have been found in the lexeme
      have noLiteral : ¬ literalNext rest = true := by
        rw [← exists_literalAt_iff isKey]
        rintro ⟨left, literal⟩
        rw [findLiteral_eq_some_iff.mpr ⟨key, literal, rfl⟩] at none
        cases none
      exact Bool.eq_false_iff.mpr noLiteral
    · have elsewhere : place.next ⟨.name, text⟩ = .elsewhere := if_neg ends
      rw [elsewhere]
      trivial

/-- A string at such a place would be a literal. -/
theorem not_literal_of_unfollowed (accepts : lexer.Accepts word rest)
    (unfollowed : Unfollowed place (word.text ++ rest)) :
    (decide (place = .colon) && decide (word.kind = .string)) = false := by
  by_contra isLiteral
  simp only [Bool.not_eq_false, Bool.and_eq_true, decide_eq_true_eq] at isLiteral
  obtain ⟨rfl, isString⟩ := isLiteral
  obtain ⟨state, runs, isKind, -⟩ := accepts
  obtain ⟨inner, isText, -⟩ := string_text runs isKind (by rw [isString]; rfl)
  have noQuote : quotedNext (word.text ++ rest) = false := unfollowed
  rw [isText] at noQuote
  simp [quotedNext, isWhitespace] at noQuote

theorem literalTokens_cons :
    literalTokens place (word :: words) =
      if word.isToken then (word, place = .colon && word.kind = .string) :: literalTokens (place.next word) words
      else literalTokens (place.next word) words := rfl

theorem literalTokens_blanks {blanks : List Word} (areBlank : ∀ blank ∈ blanks, IsBlank blank) :
    literalTokens place (blanks ++ words) = literalTokens place words := by
  induction blanks with
  | nil => rfl
  | cons blank blanks inductionHypothesis =>
    obtain ⟨⟨isIgnored, isBlank⟩, areBlank⟩ := List.forall_mem_cons.mp areBlank
    have same : place.next blank = place := by
      simp [Place.next, isIgnored, List.all_eq_true.mpr isBlank]
    have noToken : blank.isToken = false := by simp [Word.isToken, isIgnored]
    rw [List.cons_append, literalTokens_cons, noToken, if_neg Bool.false_ne_true, same,
      inductionHypothesis areBlank]

theorem map_literalTokens (place : Place) (words : List Word) :
    (literalTokens place words).map Prod.fst = tokensOf words := by
  induction words generalizing place with
  | nil => rfl
  | cons word words inductionHypothesis =>
    rw [literalTokens_cons, tokensOf_cons]
    split
    · rw [List.map_cons, inductionHypothesis]
    · exact inductionHypothesis _

theorem kind_of_literalTokens {token : Word} (isLiteral : (token, true) ∈ literalTokens place words) :
    token.kind = .string := by
  induction words generalizing place with
  | nil => cases isLiteral
  | cons word words inductionHypothesis =>
    rw [literalTokens_cons] at isLiteral
    split at isLiteral
    · cases List.mem_cons.mp isLiteral with
      | inl isFirst =>
        obtain ⟨rfl, isString⟩ := Prod.mk.inj isFirst
        exact (of_decide_eq_true ((Bool.and_eq_true _ _).mp isString.symm).2)
      | inr later => exact inductionHypothesis later
    · exact inductionHypothesis isLiteral

theorem findLiteral_of_not_key {first : Char} (notKey : isKeyChar first = false) (left : List Char) :
    findLiteral (first :: left) = none := by
  cases found : findLiteral (first :: left) with
  | none => rfl
  | some result =>
    obtain ⟨char, key, isKey, literal, -⟩ := exists_of_findLiteral found
    obtain ⟨-, blanks, spaces, body, -, -, -, same⟩ := literal
    obtain ⟨rfl, -⟩ := List.cons.inj same
    rw [notKey] at isKey
    cases isKey

/-- Literals that end in a text are replaced as in the text by itself. -/
theorem eq_replaceLiterals {allowed : List Char → List Char → Prop} {text new : List Char}
    (rewrites : Rewrites findLiteral allowed rest text new) : new = replaceAll findLiteral text := by
  have alone : Rewrites findLiteral (fun _ _ => True) [] text new := by
    apply rewrites.of_rest
    · intro part _ _ none
      cases found : findLiteral (part ++ []) with
      | none => rfl
      | some result =>
        obtain ⟨key, literal, -⟩ := findLiteral_eq_some_iff.mp found
        obtain ⟨isKey, blanks, spaces, body, areBlank, areSpaces, noQuote, isPart⟩ := literal
        have longer : LiteralAt (part ++ rest) key (result.2 ++ rest) :=
          ⟨isKey, blanks, spaces, body, areBlank, areSpaces, noQuote, by
            rw [List.append_nil] at isPart
            simp [isPart]⟩
        rw [findLiteral_eq_some_iff.mpr ⟨key, longer, rfl⟩] at none
        cases none
    · intro taken start left _ found
      obtain ⟨key, blanks, spaces, body, isKey, areBlank, areSpaces, noQuote, rfl, rfl⟩ := findLiteral_eq_some found
      exact findLiteral_eq_some_iff.mpr
        ⟨key, ⟨isKey, blanks, spaces, body, areBlank, areSpaces, noQuote, by simp⟩, rfl⟩
  have whole := alone.replaceAll
  rw [List.append_nil, replaceAll_nil, List.append_nil] at whole
  exact whole.symm

/-- A lexeme with its literals replaced is one of the same kind, with its bearer tokens inside. -/
theorem exists_literalLexeme (accepts : lexer.Accepts word rest) (literals : LiteralsInside word rest)
    (bearers : BearersInside word rest) :
    ∃ other : Word, replaceAll findLiteral (word.text ++ rest) = other.text ++ replaceAll findLiteral rest ∧
      other.isToken = word.isToken ∧ (word.isToken = true → other = withoutLiterals (word, false)) ∧
      BearersInside other (replaceAll findLiteral rest) ∧ lexer.Accepts other (replaceAll findLiteral rest) := by
  obtain ⟨state, runs, isKind, follows⟩ := accepts
  obtain ⟨kind, text⟩ := word
  change lexer.run .start text = some state at runs
  change lexemeKind state = some kind at isKind
  have mayFollow : lexer.MayFollow state (replaceAll findLiteral rest) := by
    intro char isNext
    rw [head_replaceLiterals] at isNext
    exact follows char isNext
  have untouched : kind ≠ .blockString → NoMatch findLiteral rest text →
      BearersInside ⟨kind, text⟩ (replaceAll findLiteral rest) →
      ∃ other : Word, replaceAll findLiteral (text ++ rest) = other.text ++ replaceAll findLiteral rest ∧
        other.isToken = Word.isToken ⟨kind, text⟩ ∧
        (Word.isToken ⟨kind, text⟩ = true → other = withoutLiterals (⟨kind, text⟩, false)) ∧
        BearersInside other (replaceAll findLiteral rest) ∧
        lexer.Accepts other (replaceAll findLiteral rest) := by
    intro notBlock noMatch inside
    exact ⟨⟨kind, text⟩, noMatch.replaceAll, rfl, fun _ => (if_neg notBlock).symm, inside, state, runs, isKind,
      mayFollow⟩
  cases kind with
  | ignored | punctuator | name | int | float =>
    have noLiteral : NoMatch findLiteral rest text := literals
    have noBearer : NoMatch findBearer rest text := bearers
    refine untouched nofun noLiteral fun before after isText notNil => ?_
    have none := noBearer before after isText notNil
    rw [findBearer_eq_none_iff] at none ⊢
    exact fun bearer => none (bearers_of_noMatch noLiteral ⟨before, isText.symm⟩ bearer)
  | string =>
    have noLiteral : NoMatch findLiteral rest text := literals
    exact untouched nofun noLiteral bearers
  | blockString =>
    obtain ⟨new, rewrites⟩ : EndsInside findLiteral KeepsQuotes rest text := literals
    have replaced := rewrites.replaceAll
    have alone := eq_replaceLiterals rewrites
    obtain ⟨inner, rfl, runsInner⟩ := blockString_text runs isKind
    -- no literal begins at one of the three quotes that open the block
    obtain ⟨_, rfl, afterOne⟩ := rewrites.exists_cons (findLiteral_of_not_key (by decide))
    obtain ⟨_, rfl, afterTwo⟩ := afterOne.exists_cons (findLiteral_of_not_key (by decide))
    obtain ⟨later, rfl, afterThree⟩ := afterTwo.exists_cons (findLiteral_of_not_key (by decide))
    have runsLater := run_literals afterThree runsInner
    exact ⟨⟨.blockString, '"' :: '"' :: '"' :: later⟩, replaced, rfl, fun _ => congrArg _ alone, trivial,
      .blockEnd, runsLater, rfl, fun _ _ => rfl⟩
  | comment =>
    obtain ⟨new, rewrites⟩ : EndsInside findLiteral (fun _ _ => True) rest text := literals
    have inside : EndsInside findBearer (fun _ _ => True) (replaceAll findLiteral rest) new :=
      bearersInside_of_literals rewrites bearers
    have replaced := rewrites.replaceAll
    obtain rfl : state = .comment := by cases state <;> first | rfl | cases isKind
    obtain ⟨body, rfl, isComment⟩ := comment_text runs isKind
    obtain ⟨later, rfl, afterSign⟩ := rewrites.exists_cons (findLiteral_of_not_key (by decide))
    -- what a literal is replaced with has no line end in it either
    have stillComment : ∀ char ∈ later, isCommentCharacter char = true := by
      refine afterSign.forall_mem (fun taken start left found inTaken => ?_) isComment
      obtain ⟨key, blanks, spaces, quotedText, -, -, -, -, rfl, rfl⟩ := findLiteral_eq_some found
      have placeholder : redactedLiteral.all isCommentCharacter = true := by decide
      exact List.forall_mem_append.mpr ⟨(List.forall_mem_append.mp inTaken).1, List.all_eq_true.mp placeholder⟩
    have runsLater := run_comment_iff.mpr ⟨rfl, stillComment⟩
    exact ⟨⟨.comment, '#' :: later⟩, replaced, rfl, nofun, inside, .comment, runsLater, rfl, mayFollow⟩

theorem BearerAt.exists_blank {text : List Char} (bearer : BearerAt text) :
    ∃ char ∈ text, isWhitespace char = true := by
  obtain ⟨word, blanks, first, rest, -, notNil, areBlank, -, rfl⟩ := bearer
  obtain ⟨blank, others, rfl⟩ := List.exists_cons_of_ne_nil notNil
  exact ⟨blank, by simp, areBlank blank List.mem_cons_self⟩

theorem noMatch_singleton {char : Char} (notB : char ≠ 'b' ∧ char ≠ 'B') : NoMatch findBearer rest [char] := by
  intro before after isText notNil
  obtain ⟨first, others, rfl⟩ := List.exists_cons_of_ne_nil notNil
  have member : first ∈ [char] := by simp [isText]
  rw [List.mem_singleton.mp member]
  exact findBearer_of_not_b notB _

theorem textOf_blanks {blanks : List Word} (areBlank : ∀ blank ∈ blanks, IsBlank blank) :
    (∀ char ∈ textOf blanks, isWhitespace char = true) ∧ tokensOf blanks = [] := by
  constructor
  · intro char member
    obtain ⟨blank, isBlank, inBlank⟩ := List.mem_flatMap.mp member
    exact (areBlank blank isBlank).2 char inBlank
  · apply List.filter_eq_nil_iff.mpr
    intro blank isBlank
    simp [Word.isToken, (areBlank blank isBlank).1]

/-- The lexemes that are put in for a name with a literal. -/
def redactedArgument (name : List Char) : List Word :=
  [⟨.name, name⟩, colon, ⟨.ignored, [' ']⟩, quoted redactedPlaceholder.toList]

theorem textOf_redactedArgument (name : List Char) : textOf (redactedArgument name) = name ++ redactedLiteral := by
  simp [redactedArgument, colon, quoted, redactedLiteral]

theorem fit_redactedArgument {name : List Char} (accepts : lexer.Accepts ⟨.name, name⟩ rest)
    (fit : lexer.Fit words) : lexer.Fit (redactedArgument name ++ words) := by
  obtain ⟨state, runs, isKind, -⟩ := accepts
  obtain rfl : state = .name := by cases state <;> first | rfl | cases isKind
  have string : lexer.run .start ('"' :: (redactedPlaceholder.toList ++ ['"'])) = some .stringEnd := by decide
  refine ⟨⟨.name, runs, rfl, ?_⟩, ⟨.punctuator, rfl, rfl, fun _ _ => rfl⟩,
    ⟨.ignored, rfl, rfl, fun _ _ => rfl⟩, ⟨.stringEnd, string, rfl, fun _ _ => rfl⟩, fit⟩
  intro char isNext
  obtain rfl : ':' = char := by simpa [colon] using isNext
  decide

theorem bearersInside_redactedArgument {name : List Char} (accepts : lexer.Accepts ⟨.name, name⟩ rest)
    (inside : AllBearersInside words) : AllBearersInside (redactedArgument name ++ words) := by
  obtain ⟨state, runs, isKind, -⟩ := accepts
  have nameChars := name_text runs isKind
  refine ⟨?_, noMatch_singleton (by decide), noMatch_singleton (by decide), ?_, inside⟩
  · intro before after isText _
    rw [findBearer_eq_none_iff]
    intro bearer
    -- a colon comes next, and no white space before it
    change BearerAt (after ++ ':' :: textOf (⟨.ignored, [' ']⟩ :: quoted redactedPlaceholder.toList :: words)) at bearer
    rw [← List.singleton_append, ← List.append_assoc] at bearer
    obtain ⟨char, member, blank⟩ := (bearer.of_append ⟨':', by simp, by decide⟩).exists_blank
    cases List.mem_append.mp member with
    | inl inName =>
      have continues := nameChars char (by rw [isText]; exact List.mem_append_right _ inName)
      rw [isWhitespace_of_isNameContinue continues] at blank
      cases blank
    | inr isColon =>
      rw [List.mem_singleton.mp isColon] at blank
      cases blank
  · intro before after isText _
    rw [findBearer_eq_none_iff]
    intro bearer
    obtain ⟨char, member, blank⟩ := bearer.exists_blank
    have noBlank : ((quoted redactedPlaceholder.toList).text.all fun char => !isWhitespace char) = true := by decide
    have notBlank := List.all_eq_true.mp noBlank char (by rw [isText]; exact List.mem_append_right _ member)
    rw [blank] at notBlank
    cases notBlank

theorem literalTokens_argument {before key body : List Char} {blanks spaces : List Word}
    (isKey : literalKey.Matches key) (areBlank : ∀ blank ∈ blanks, IsBlank blank)
    (areSpaces : ∀ space ∈ spaces, IsBlank space) :
    literalTokens place (⟨.name, before ++ key⟩ :: (blanks ++ colon :: (spaces ++ quoted body :: words))) =
      (⟨.name, before ++ key⟩, false) :: (colon, false) :: (quoted body, true) :: literalTokens .elsewhere words := by
  have afterName : place.next ⟨.name, before ++ key⟩ = .named :=
    if_pos (endsWithKey_iff.mpr ⟨before, key, rfl, isKey⟩)
  have nameFirst : ∀ others, literalTokens place (⟨.name, before ++ key⟩ :: others) =
      (⟨.name, before ++ key⟩, false) :: literalTokens .named others := by
    intro others
    rw [← afterName]
    simp [literalTokens, Word.isToken]
  have colonNext : ∀ others, literalTokens .named (colon :: others) = (colon, false) :: literalTokens .colon others :=
    fun _ => rfl
  have stringNext : ∀ others, literalTokens .colon (quoted body :: others) =
      (quoted body, true) :: literalTokens .elsewhere others :=
    fun _ => rfl
  rw [nameFirst, literalTokens_blanks areBlank, colonNext, literalTokens_blanks areSpaces, stringNext]

/-- The first expression rewrites the lexemes one by one, or an argument at once. -/
theorem exists_literalLexemes (confined : Confined words) (fit : lexer.Fit words)
    (unfollowed : Unfollowed place (textOf words)) :
    ∃ others, replaceAll findLiteral (textOf words) = textOf others ∧ lexer.Fit others ∧
      AllBearersInside others ∧ tokensOf others = (literalTokens place words).map withoutLiterals := by
  induction confined generalizing place with
  | nil => exact ⟨[], rfl, trivial, trivial, rfl⟩
  | @lexeme word words literals bearers _ inductionHypothesis =>
    obtain ⟨accepts, fit⟩ := fit
    obtain ⟨others, isText, fitOthers, inside, tokens⟩ := inductionHypothesis fit (unfollowed.next literals)
    obtain ⟨other, replaced, isToken, isOther, otherInside, acceptsOther⟩ :=
      exists_literalLexeme accepts literals bearers
    rw [isText] at replaced otherInside acceptsOther
    refine ⟨other :: others, replaced, ⟨acceptsOther, fitOthers⟩, ⟨otherInside, inside⟩, ?_⟩
    rw [tokensOf_cons, literalTokens_cons, isToken, not_literal_of_unfollowed accepts unfollowed]
    cases whether : word.isToken with
    | true => simp [isOther whether, tokens]
    | false => simpa using tokens
  | @argument before key body blanks spaces words isKey areBlank areSpaces noQuote noMatch _ inductionHypothesis =>
    obtain ⟨accepts, fitRest⟩ := fit
    have fitWords : lexer.Fit words := by
      have afterColon := (fitRest.of_append).2
      exact afterColon.of_append.2
    obtain ⟨others, isText, fitOthers, inside, tokens⟩ := @inductionHypothesis .elsewhere fitWords trivial
    refine ⟨redactedArgument (before ++ key) ++ others, ?_, fit_redactedArgument accepts fitOthers,
      bearersInside_redactedArgument accepts inside, ?_⟩
    · have literal : LiteralAt (key ++ textOf (blanks ++ colon :: (spaces ++ quoted body :: words))) key
          (textOf words) :=
        ⟨isKey, textOf blanks, textOf spaces, body, (textOf_blanks areBlank).1, (textOf_blanks areSpaces).1,
          noQuote, by simp [colon, quoted]⟩
      have found := findLiteral_eq_some_iff.mpr ⟨key, literal, rfl⟩
      obtain ⟨taken, notNil, isTaken⟩ := consumes_findLiteral found
      rw [textOf_cons, List.append_assoc, noMatch.replaceAll, isTaken]
      rw [isTaken] at found
      rw [replaceAll_of_some notNil found, isText, textOf_append, textOf_redactedArgument]
      simp
    · rw [literalTokens_argument isKey areBlank areSpaces, List.map_cons, List.map_cons, List.map_cons, ← tokens]
      rfl

/-! ## The structure of a sanitized document -/

theorem accepts_of_sameShape (terminal : Terminal) (token other : Word) (sameShape : SameShape token other) :
    terminal.accepts other = terminal.accepts token := by
  cases sameShape with
  | inl same => rw [same]
  | inr strings =>
    obtain ⟨sameKind, isString⟩ := strings
    obtain ⟨kind, text⟩ := token
    obtain ⟨otherKind, otherText⟩ := other
    obtain rfl : kind = otherKind := sameKind
    cases kind with
    | string | blockString => cases terminal <;> rfl
    | ignored | comment | punctuator | name | int | float => cases isString

theorem SameShape.trans {token middle other : Word} (first : SameShape token middle)
    (second : SameShape middle other) : SameShape token other := by
  cases first with
  | inl same => rwa [same]
  | inr strings =>
    obtain ⟨sameKind, isString⟩ := strings
    cases second with
    | inl same => exact .inr ⟨same ▸ sameKind, isString⟩
    | inr moreStrings => exact .inr ⟨sameKind.trans moreStrings.1, isString⟩

theorem sameShape_withoutLiterals {token : Word × Bool} (isString : token.2 = true → token.1.kind = .string) :
    SameShape token.1 (withoutLiterals token) := by
  obtain ⟨token, literal⟩ := token
  cases literal with
  | true =>
    have sameKind : token.kind = .string := isString rfl
    exact .inr ⟨sameKind, by rw [sameKind]; rfl⟩
  | false =>
    by_cases isBlock : token.kind = .blockString
    · have other : withoutLiterals (token, false) = ⟨.blockString, replaceAll findLiteral token.text⟩ := if_pos isBlock
      rw [other]
      exact .inr ⟨isBlock, by rw [isBlock]; rfl⟩
    · have same : withoutLiterals (token, false) = token := if_neg isBlock
      rw [same]
      exact .inl rfl

/-- The matches of both expressions stay in the lexemes of the document. -/
def ConfinedMatches (document : String) : Prop :=
  ∀ words, lexer.Reads document.toList words → Confined words

/-- What is released in place of a token. -/
def released (token : Word × Bool) : Word := withoutBearers (withoutLiterals token)

theorem sameShape_released {token : Word × Bool} (isString : token.2 = true → token.1.kind = .string) :
    SameShape token.1 (released token) :=
  (sameShape_withoutLiterals isString).trans (sameShape_withoutBearers _)

/-- The lexemes of a sanitized document, and what they are as tokens. -/
theorem exists_sanitizedLexemes {document : String} (confined : Confined words)
    (reads : lexer.Reads document.toList words) : ∃ others,
      lexer.Reads (sanitizeGqlQueryStr queryPatterns document).toList others ∧
        tokensOf others = (literalTokens .elsewhere words).map released := by
  obtain ⟨isText, fit⟩ := reads
  obtain ⟨middle, ofLiterals, fitMiddle, inside, middleTokens⟩ := @exists_literalLexemes .elsewhere _ confined fit trivial
  obtain ⟨others, ofBearers, fitOthers, -, tokens⟩ := exists_bearerLexemes fitMiddle inside
  refine ⟨others, ⟨?_, fitOthers⟩, ?_⟩
  · rw [sanitizeGqlQueryStr_toList, ← isText, ofLiterals, ofBearers]
  · rw [tokens, middleTokens, List.map_map]
    rfl

/-- A document of which no match runs over the end of a lexeme keeps its structure: all its tokens
    but the texts of strings. -/
theorem sanitizeGqlQueryStr_parses (document : String) (tree : DerivationTree) (confined : ConfinedMatches document)
    (parses : Parses document tree) : ∃ other,
      Parses (sanitizeGqlQueryStr queryPatterns document) other ∧ tree.Alike SameShape other := by
  obtain ⟨words, reads, isYield, fits⟩ := parses
  obtain ⟨others, readsOthers, tokens⟩ := exists_sanitizedLexemes (confined words reads) reads
  have sameTokens : List.Forall₂ SameShape tree.yield (tokensOf others) := by
    have isTokens : tree.yield = (literalTokens .elsewhere words).map Prod.fst :=
      isYield.trans (map_literalTokens .elsewhere words).symm
    rw [isTokens, tokens, List.forall₂_map_left_iff, List.forall₂_map_right_iff, List.forall₂_same]
    rintro ⟨token, literal⟩ member
    apply sameShape_released
    rintro rfl
    exact kind_of_literalTokens member
  obtain ⟨other, alike, isOtherYield⟩ := Forest.exists_alike sameTokens
  exact ⟨other, ⟨others, readsOthers, isOtherYield, fits.of_alike alike .nil accepts_of_sameShape⟩, alike⟩

end Lexemes

/-! ### An argument -/

def blank : Word := ⟨.ignored, [' ']⟩

/-- The lexemes of `\x7b a(password: "…") \x7d`. -/
def argumentWords (string : Word) : List Word :=
  [⟨.punctuator, ['\x7b']⟩, blank, ⟨.name, ['a']⟩, ⟨.punctuator, ['(']⟩, ⟨.name, "password".toList⟩, colon, blank,
    string, ⟨.punctuator, [')']⟩, blank, ⟨.punctuator, ['\x7d']⟩]

def argumentTree (string : Word) : DerivationTree :=
  let argument := .leaf ⟨.name, "password".toList⟩ (.leaf colon (.node (.value false) (.leaf string .nil) .nil))
  let arguments := .leaf ⟨.punctuator, ['(']⟩ (.node (.argument false) argument (.leaf ⟨.punctuator, [')']⟩ .nil))
  let field := .leaf ⟨.name, ['a']⟩ (.node (.arguments false) arguments .nil)
  let selectionSet := .leaf ⟨.punctuator, ['\x7b']⟩ (.node .selection (.node .field field .nil)
    (.leaf ⟨.punctuator, ['\x7d']⟩ .nil))
  .node .document (.node .definition (.node .operationDefinition (.node .selectionSet selectionSet .nil) .nil) .nil)
    .nil

/-- A value of one token. -/
def IsValue (token : Word) : Prop :=
  token.isToken = true ∧ ∃ terminal, [.terminal terminal] ∈ productions (.value false) ∧ terminal.accepts token = true

theorem isValue_of_isString {string : Word} (isString : string.kind.isString = true) : IsValue string := by
  refine ⟨?_, .string, by simp [productions], isString⟩
  obtain ⟨kind, text⟩ := string
  cases kind with
  | string | blockString => rfl
  | ignored | punctuator | comment | name | int | float => cases isString

theorem fits_argumentTree {string : Word} (isValue : IsValue string) :
    graphql.Fits [.one .document] (argumentTree string) [] := by
  obtain ⟨-, terminal, listed, accepted⟩ := isValue
  have value : ∀ after, graphql.Fits [.one (.value false)] (.node (.value false) (.leaf string .nil) .nil) after :=
    fun after => .one listed (.terminal accepted .nil) .nil
  -- from the document down to its selections, its field, the arguments
  refine .one (List.mem_singleton.mpr rfl) (.last (.one List.mem_cons_self (.one List.mem_cons_self
    (.one (List.mem_singleton.mpr rfl) ?_ .nil) .nil) .nil)) .nil
  refine .terminal rfl (.last (.one List.mem_cons_self (.one (List.mem_singleton.mpr rfl) ?_ .nil)
    (.terminal rfl .nil)))
  refine .skip (.terminal rfl (.take (.one (List.mem_singleton.mpr rfl) ?_ (.skip (.skip .nil)))))
  exact .terminal rfl (.last (.one (List.mem_singleton.mpr rfl) (.terminal rfl (.terminal rfl (value _)))
    (.terminal rfl .nil)))

theorem yield_argumentTree {string : Word} (isToken : string.isToken = true) :
    (argumentTree string).yield = tokensOf (argumentWords string) := by
  have last : tokensOf [string, ⟨.punctuator, [')']⟩, blank, ⟨.punctuator, ['\x7d']⟩] =
      [string, ⟨.punctuator, [')']⟩, ⟨.punctuator, ['\x7d']⟩] := by
    rw [tokensOf_cons, isToken]
    rfl
  change _ = ⟨.punctuator, ['\x7b']⟩ :: ⟨.name, ['a']⟩ :: ⟨.punctuator, ['(']⟩ :: ⟨.name, "password".toList⟩ :: colon ::
    tokensOf [string, ⟨.punctuator, [')']⟩, blank, ⟨.punctuator, ['\x7d']⟩]
  rw [last]
  rfl

theorem parses_argument {document : String} {string : Word} (isValue : IsValue string)
    (isRead : lexer.read document.toList = some (argumentWords string)) :
    Parses document (argumentTree string) :=
  ⟨argumentWords string, Tokenizer.read_eq_some_iff.mp isRead, yield_argumentTree isValue.1, fits_argumentTree isValue⟩

theorem matches_literalKeys (word : String) (listed : word ∈ literalKeys) : literalKey.Matches word.toList := by
  have checked : ∀ word ∈ literalKeys, word.toList.all (fun letter => caseless letter letter) = true := by decide
  refine Regex.matches_oneOf.mpr ⟨_, List.mem_map.mpr ⟨word, listed, rfl⟩, Regex.matches_word.mpr ?_⟩
  rw [List.forall₂_map_left_iff, List.forall₂_same]
  exact List.all_eq_true.mp (checked word listed)

theorem read_argument : lexer.read "\x7b a(password: \"x\") \x7d".toList = some (argumentWords (quoted ['x'])) := by
  decide +kernel

theorem confinedMatches_argument : ConfinedMatches "\x7b a(password: \"x\") \x7d" := by
  intro words reads
  obtain rfl := reads.unique (Tokenizer.read_eq_some_iff.mp read_argument)
  have after : Confined [⟨.punctuator, [')']⟩, blank, ⟨.punctuator, ['\x7d']⟩] :=
    .plain rfl (by decide +kernel) (by decide +kernel) (.plain rfl (by decide +kernel) (by decide +kernel)
      (.plain rfl (by decide +kernel) (by decide +kernel) .nil))
  have argument : Confined (⟨.name, "password".toList⟩ :: colon :: blank :: quoted ['x'] ::
      [⟨.punctuator, [')']⟩, blank, ⟨.punctuator, ['\x7d']⟩]) := by
    have isKey : literalKey.Matches "password".toList := matches_literalKeys "password" (by decide)
    have isBlank : ∀ space ∈ [blank], IsBlank space := by
      simp [IsBlank, blank]
      decide
    exact @Confined.argument [] _ ['x'] [] [blank] _ isKey (by simp) isBlank (by decide) (by decide) after
  exact .plain rfl (by decide +kernel) (by decide +kernel) (.plain rfl (by decide +kernel) (by decide +kernel)
    (.plain rfl (by decide +kernel) (by decide +kernel) (.plain rfl (by decide +kernel) (by decide +kernel)
      argument)))

/-- A literal without a quotation mark in it is replaced, and the document is still one. -/
theorem sanitizeGqlQueryStr_parses_argument : ∃ other,
    Parses (sanitizeGqlQueryStr queryPatterns "\x7b a(password: \"x\") \x7d") other ∧
      (argumentTree (quoted ['x'])).Alike SameShape other :=
  sanitizeGqlQueryStr_parses _ _ confinedMatches_argument (parses_argument (isValue_of_isString rfl) read_argument)

/-- An escaped quotation mark is taken for the end of the literal, and what comes after it for more. -/
theorem escaped_quote_ends_literal :
    (∃ tree, Parses "\x7b a(password: \"x\\\"y\") \x7d" tree) ∧
      ¬ ∃ other, Parses (sanitizeGqlQueryStr queryPatterns "\x7b a(password: \"x\\\"y\") \x7d") other := by
  constructor
  · exact ⟨_, @parses_argument _ (quoted ['x', '\\', '"', 'y']) (isValue_of_isString rfl) (by decide +kernel)⟩
  · rintro ⟨other, words, reads, -⟩
    have isRead := Tokenizer.read_eq_some_iff.mpr reads
    have unread : lexer.read (sanitizeGqlQueryStr queryPatterns
        "\x7b a(password: \"x\\\"y\") \x7d").toList = none := by
      decide +kernel
    rw [unread] at isRead
    cases isRead

end SpectraGQL.Interceptors
