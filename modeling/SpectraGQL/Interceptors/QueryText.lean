import Mathlib.Tactic.IntervalCases
import SpectraGQL.Data.Regex
import SpectraGQL.Interceptors.Redaction

/-! # The regular expressions of query texts (`interceptors/sanitizer.rs`, `sanitize_gql_query_str`)

One expression finds a sensitive name with a colon and a quoted text after it, the other a bearer
token.  Both are replaced throughout a text, the second in what the first has left.  Doing it
again changes nothing (`sanitizeGqlQueryStr_idempotent`): what is put in for a match of the first is
its only kind of match afterwards, and no match of the second comes to be.
-/

namespace SpectraGQL.Interceptors

open Data SpectraGQL.Http SpectraGQL.Protocol

/-! ## The expressions -/

/-- A letter in any case; two characters beyond ASCII are cases of `s` and `k` as well. -/
def caseless (letter char : Char) : Bool :=
  char.toLower == letter || (letter == 's' && char == 'ſ') || (letter == 'k' && char == '\u212a')

def keyword (text : String) : Regex Char := Regex.word (text.toList.map caseless)

/-- The names whose literals are replaced. -/
def literalKeys : List String :=
  ["password", "pass", "token", "secret", "apikey", "api_key", "creditcard", "credit_card", "cvv", "cvc",
    "ssn", "pin"]

/-- The group that is kept. -/
def literalKey : Regex Char := .oneOf (literalKeys.map keyword)

/-- `\s*:\s*"[^"]*"`. -/
def literalValue : Regex Char :=
  .seq (.many isWhitespace) (.seq (.one (· == ':')) (.seq (.many isWhitespace)
    (.seq (.one (· == '"')) (.seq (.many (· != '"')) (.one (· == '"'))))))

/-- `[A-Za-z0-9\-_.~+/=]` in any case. -/
def isTokenChar (char : Char) : Bool :=
  char.isAlphanum || ['-', '_', '.', '~', '+', '/', '=', 'ſ', '\u212a'].contains char

/-- What comes after `Bearer`. -/
def bearerCredentials : Regex Char := .seq (.some isWhitespace) (.some isTokenChar)

/-- What stands after a name whose literal was replaced. -/
def redactedLiteral : List Char := ':' :: ' ' :: '"' :: redactedPlaceholder.toList ++ ['"']

/-- A name with a literal, and what is put in for both. -/
def findLiteral (text : List Char) : Option (List Char × List Char) :=
  (Regex.captures literalKey literalValue text).map fun found => (found.1 ++ redactedLiteral, found.2)

/-- A bearer token, and what is put in for it. -/
def findBearer (text : List Char) : Option (List Char × List Char) :=
  (Regex.captures (keyword "bearer") bearerCredentials text).map fun found => (redactedBearer.toList, found.2)

/-- The regular expressions of the sanitizer. -/
def queryPatterns : Patterns where
  replaceLiterals text := String.ofList (replaceAll findLiteral text.toList)
  replaceBearers text := String.ofList (replaceAll findBearer text.toList)

/-! ## Characters -/

/-- A character that may occur in a name whose literal is replaced; none of them is a `b`. -/
def isKeyChar (char : Char) : Bool :=
  (char.isAlpha && char.toLower != 'b') || char == '_' || char == 'ſ' || char == '\u212a'

theorem toLower_of_not_isAlpha {char : Char} (notLetter : char.isAlpha = false) : char.toLower = char := by
  unfold Char.isAlpha Char.isUpper at notLetter
  simp only [Bool.or_eq_false_iff, decide_eq_false_iff_not] at notLetter
  unfold Char.toLower
  exact dif_neg notLetter.1

theorem code_of_isAlpha {char : Char} (alpha : char.isAlpha = true) :
    (65 ≤ char.toNat ∧ char.toNat ≤ 90) ∨ (97 ≤ char.toNat ∧ char.toNat ≤ 122) := by
  unfold Char.isAlpha Char.isUpper Char.isLower at alpha
  simpa [UInt32.le_iff_toNat_le] using alpha

theorem eq_toLower_or (char : Char) : char = char.toLower ∨ char = char.toLower.toUpper := by
  cases alpha : char.isAlpha with
  | false => exact .inl (toLower_of_not_isAlpha alpha).symm
  | true =>
    have cases : ∀ code < 123, Char.ofNat code = (Char.ofNat code).toLower ∨
        Char.ofNat code = (Char.ofNat code).toLower.toUpper := by
      decide
    have code := code_of_isAlpha alpha
    rw [← Char.ofNat_toNat char]
    exact cases char.toNat (by omega)

/-- The other letters have their two cases only. -/
theorem eq_of_caseless {letter char : Char} (notS : letter ≠ 's') (notK : letter ≠ 'k')
    (accepted : caseless letter char = true) : char = letter ∨ char = letter.toUpper := by
  have isLetter : char.toLower = letter := by simpa [caseless, notS, notK] using accepted
  rw [← isLetter]
  exact eq_toLower_or char

theorem isKeyChar_of_caseless {letter char : Char} (isLetter : isKeyChar letter = true)
    (accepted : caseless letter char = true) : isKeyChar char = true := by
  simp only [caseless, Bool.or_eq_true, beq_iff_eq, Bool.and_eq_true] at accepted
  rcases accepted with (rfl | ⟨-, rfl⟩) | ⟨-, rfl⟩
  · cases alpha : char.isAlpha with
    | true =>
      have notB : char.toLower ≠ 'b' := by
        intro isB
        rw [isB] at isLetter
        revert isLetter
        decide
      simp [isKeyChar, alpha, notB]
    | false => rwa [toLower_of_not_isAlpha alpha] at isLetter
  · decide
  · decide

theorem isWhitespace_of_isKeyChar {char : Char} (isKey : isKeyChar char = true) :
    isWhitespace char = false := by
  simp only [isKeyChar, Bool.or_eq_true, Bool.and_eq_true, beq_iff_eq] at isKey
  rcases isKey with ((⟨alpha, -⟩ | rfl) | rfl) | rfl
  · have code := code_of_isAlpha alpha
    simp only [isWhitespace, Bool.or_eq_false_iff, Bool.and_eq_false_iff, decide_eq_false_iff_not,
      beq_eq_false_iff_ne]
    omega
  · decide
  · decide
  · decide

theorem ne_of_isKeyChar {char other : Char} (isKey : isKeyChar char = true)
    (notKey : isKeyChar other = false) : char ≠ other := by
  rintro rfl
  simp [isKey] at notKey

theorem matches_keyword {word : String} {text : List Char} (matched : (keyword word).Matches text) :
    List.Forall₂ (fun letter char => caseless letter char = true) word.toList text := by
  have classes := Regex.matches_word.mp matched
  rwa [List.forall₂_map_left_iff] at classes

theorem exists_letter {letters text : List Char}
    (folded : List.Forall₂ (fun letter char => caseless letter char = true) letters text) :
    ∀ char ∈ text, ∃ letter ∈ letters, caseless letter char = true := by
  induction folded with
  | nil => simp
  | cons accepted _ inductionHypothesis =>
    intro char member
    cases member with
    | head => exact ⟨_, List.mem_cons_self, accepted⟩
    | tail _ later =>
      obtain ⟨letter, isLetter, accepted⟩ := inductionHypothesis char later
      exact ⟨letter, List.mem_cons_of_mem _ isLetter, accepted⟩

theorem isKeyChar_of_literalKeys :
    ∀ word ∈ literalKeys, word.toList ≠ [] ∧ ∀ letter ∈ word.toList, isKeyChar letter = true := by
  have checked : ∀ word ∈ literalKeys, word.toList ≠ [] ∧ word.toList.all isKeyChar = true := by decide
  intro word isWord
  exact ⟨(checked word isWord).1, List.all_eq_true.mp (checked word isWord).2⟩

/-- The name before a literal is not empty and has no other characters. -/
theorem isKeyChar_of_literalKey {key : List Char} (matched : literalKey.Matches key) :
    key ≠ [] ∧ ∀ char ∈ key, isKeyChar char = true := by
  obtain ⟨_, listed, matched⟩ := Regex.matches_oneOf.mp matched
  obtain ⟨word, isWord, rfl⟩ := List.mem_map.mp listed
  have letters := isKeyChar_of_literalKeys word isWord
  have folded := matches_keyword matched
  constructor
  · rintro rfl
    exact letters.1 (List.forall₂_nil_right_iff.mp folded)
  · intro char member
    obtain ⟨letter, isLetter, accepted⟩ := exists_letter folded char member
    exact isKeyChar_of_caseless (letters.2 letter isLetter) accepted

/-! ## Names with literals -/

/-- After a colon: a quoted text, after any white space. -/
def quotedNext : List Char → Bool
  | [] => false
  | char :: rest => if isWhitespace char then quotedNext rest else char == '"' && rest.contains '"'

/-- After a name: a colon and a quoted text. -/
def literalNext : List Char → Bool
  | [] => false
  | char :: rest => if isWhitespace char then literalNext rest else char == ':' && quotedNext rest

/-- The text starts with a sensitive name and a literal, before `left`. -/
structure LiteralAt (text key left : List Char) : Prop where
  isKey : literalKey.Matches key
  follows : ∃ blanks spaces body, (∀ char ∈ blanks, isWhitespace char = true) ∧
    (∀ char ∈ spaces, isWhitespace char = true) ∧ '"' ∉ body ∧
      text = key ++ (blanks ++ ':' :: (spaces ++ '"' :: (body ++ '"' :: left)))

theorem matches_literalValue {taken : List Char} : literalValue.Matches taken ↔
    ∃ blanks spaces body, (∀ char ∈ blanks, isWhitespace char = true) ∧
      (∀ char ∈ spaces, isWhitespace char = true) ∧ '"' ∉ body ∧
        taken = blanks ++ ':' :: (spaces ++ '"' :: (body ++ ['"'])) := by
  simp only [literalValue, Regex.Matches, beq_iff_eq, bne_iff_ne, ne_eq]
  constructor
  · rintro ⟨blanks, _, rfl, areBlank, _, _, rfl, ⟨_, rfl, rfl⟩, spaces, _, rfl, areSpaces, _, _, rfl,
      ⟨_, rfl, rfl⟩, body, _, rfl, noQuote, _, rfl, rfl⟩
    exact ⟨blanks, spaces, body, areBlank, areSpaces, fun quote => noQuote _ quote rfl, rfl⟩
  · rintro ⟨blanks, spaces, body, areBlank, areSpaces, noQuote, rfl⟩
    exact ⟨blanks, _, rfl, areBlank, [':'], _, rfl, ⟨_, rfl, rfl⟩, spaces, _, rfl, areSpaces, ['"'], _, rfl,
      ⟨_, rfl, rfl⟩, body, _, rfl, fun char member isQuote => noQuote (isQuote ▸ member), _, rfl, rfl⟩

/-- The name and the rest of a text that starts with a literal are told by the text. -/
theorem LiteralAt.unique {text key left other otherLeft : List Char} (literal : LiteralAt text key left)
    (another : LiteralAt text other otherLeft) : key = other ∧ left = otherLeft := by
  obtain ⟨isKey, blanks, spaces, body, areBlank, areSpaces, noQuote, isText⟩ := literal
  obtain ⟨isOther, blanks', spaces', body', areBlank', areSpaces', noQuote', isText'⟩ := another
  -- each part ends where a character of another kind stands
  have notKeyChar : ∀ {blanks rest : List Char}, (∀ char ∈ blanks, isWhitespace char = true) →
      ∀ char ∈ (blanks ++ ':' :: rest).head?, isKeyChar char = false := by
    intro blanks rest areBlank char isHead
    cases blanks with
    | nil =>
      obtain rfl : ':' = char := by simpa using isHead
      decide
    | cons blank blanks =>
      obtain rfl : blank = char := by simpa using isHead
      cases isKey : isKeyChar blank with
      | false => rfl
      | true => simpa [isWhitespace_of_isKeyChar isKey] using areBlank blank List.mem_cons_self
  obtain ⟨sameKey, sameRest⟩ := run_unique (isKeyChar_of_literalKey isKey).2
    (isKeyChar_of_literalKey isOther).2 (notKeyChar areBlank) (notKeyChar areBlank')
    (isText.symm.trans isText')
  have notBlank : ∀ {char : Char} {rest : List Char}, isWhitespace char = false →
      ∀ first ∈ (char :: rest).head?, isWhitespace first = false := by
    intro char rest notBlank first isHead
    obtain rfl : char = first := by simpa using isHead
    exact notBlank
  obtain ⟨-, afterBlanks⟩ := run_unique areBlank areBlank' (notBlank (by decide)) (notBlank (by decide))
    sameRest
  obtain ⟨-, afterSpaces⟩ := run_unique areSpaces areSpaces' (notBlank (by decide)) (notBlank (by decide))
    (List.cons.inj afterBlanks).2
  have isQuote : ∀ {rest : List Char}, ∀ first ∈ ('"' :: rest).head?, (first != '"') = false := by
    intro rest first isHead
    obtain rfl : '"' = first := by simpa using isHead
    decide
  have noQuotes : ∀ {body : List Char}, '"' ∉ body → ∀ char ∈ body, (char != '"') = true := by
    intro body noQuote char member
    rw [bne_iff_ne]
    rintro rfl
    exact noQuote member
  obtain ⟨-, afterBody⟩ := run_unique (noQuotes noQuote) (noQuotes noQuote') isQuote isQuote
    (List.cons.inj afterSpaces).2
  exact ⟨sameKey, (List.cons.inj afterBody).2⟩

theorem findLiteral_eq_some_iff {text new left : List Char} :
    findLiteral text = some (new, left) ↔ ∃ key, LiteralAt text key left ∧ new = key ++ redactedLiteral := by
  have sound : ∀ {key left}, Regex.captures literalKey literalValue text = some (key, left) →
      LiteralAt text key left := by
    intro key left found
    obtain ⟨taken, isKey, isValue, isText⟩ := Regex.captures_sound found
    obtain ⟨blanks, spaces, body, areBlank, areSpaces, noQuote, rfl⟩ := matches_literalValue.mp isValue
    exact ⟨isKey, blanks, spaces, body, areBlank, areSpaces, noQuote, by simp [isText]⟩
  simp only [findLiteral, Option.map_eq_some_iff, Prod.mk.injEq, Prod.exists]
  constructor
  · rintro ⟨key, _, found, rfl, rfl⟩
    exact ⟨key, sound found, rfl⟩
  · rintro ⟨key, literal, rfl⟩
    obtain ⟨isKey, blanks, spaces, body, areBlank, areSpaces, noQuote, isText⟩ := literal
    have isValue := matches_literalValue.mpr ⟨blanks, spaces, body, areBlank, areSpaces, noQuote, rfl⟩
    have sameText : text = key ++ (blanks ++ ':' :: (spaces ++ '"' :: (body ++ ['"']))) ++ left := by
      simp [isText]
    have isFound : ∃ found, Regex.captures literalKey literalValue text = some found := by
      rw [sameText]
      exact Regex.captures_isSome isKey isValue
    obtain ⟨⟨key', left'⟩, found⟩ := isFound
    obtain ⟨rfl, rfl⟩ := (sound found).unique ⟨isKey, blanks, spaces, body, areBlank, areSpaces, noQuote, isText⟩
    exact ⟨_, _, found, rfl, rfl⟩

/-- What is taken for a literal, and what is put in. -/
theorem findLiteral_eq_some {taken start left : List Char}
    (found : findLiteral (taken ++ left) = some (start, left)) :
    ∃ key blanks spaces body, literalKey.Matches key ∧ (∀ char ∈ blanks, isWhitespace char = true) ∧
      (∀ char ∈ spaces, isWhitespace char = true) ∧ '"' ∉ body ∧
        taken = key ++ (blanks ++ ':' :: (spaces ++ '"' :: (body ++ ['"']))) ∧ start = key ++ redactedLiteral := by
  obtain ⟨key, literal, isStart⟩ := findLiteral_eq_some_iff.mp found
  obtain ⟨isKey, blanks, spaces, body, areBlank, areSpaces, noQuote, isText⟩ := literal
  have same : taken ++ left = key ++ (blanks ++ ':' :: (spaces ++ '"' :: (body ++ ['"']))) ++ left := by
    simp [isText]
  exact ⟨key, blanks, spaces, body, isKey, areBlank, areSpaces, noQuote, List.append_cancel_right same, isStart⟩

theorem consumes_findLiteral : Consumes findLiteral := by
  intro text new left found
  obtain ⟨key, literal, -⟩ := findLiteral_eq_some_iff.mp found
  obtain ⟨isKey, blanks, spaces, body, -, -, -, isText⟩ := literal
  refine ⟨key ++ (blanks ++ ':' :: (spaces ++ '"' :: (body ++ ['"']))), by simp, by simp [isText]⟩

/-- A test that passes over blanks looks for a mark behind them. -/
theorem afterBlanks_iff {next test : List Char → Bool} {mark : Char} (notBlank : isWhitespace mark = false)
    (atEnd : next [] = false)
    (atChar : ∀ char rest, next (char :: rest) =
      if isWhitespace char then next rest else (char == mark && test rest)) {text : List Char} :
    next text = true ↔ ∃ blanks rest, (∀ char ∈ blanks, isWhitespace char = true) ∧ test rest = true ∧
      text = blanks ++ mark :: rest := by
  induction text with
  | nil => simp [atEnd]
  | cons char rest inductionHypothesis =>
    rw [atChar]
    cases blank : isWhitespace char with
    | true =>
      rw [if_pos rfl, inductionHypothesis]
      constructor
      · rintro ⟨blanks, later, areBlank, passes, rfl⟩
        exact ⟨char :: blanks, later, List.forall_mem_cons.mpr ⟨blank, areBlank⟩, passes, rfl⟩
      · rintro ⟨blanks, later, areBlank, passes, isText⟩
        cases blanks with
        | nil =>
          obtain ⟨rfl, -⟩ := List.cons.inj isText
          simp [blank] at notBlank
        | cons first blanks =>
          exact ⟨blanks, later, (List.forall_mem_cons.mp areBlank).2, passes, (List.cons.inj isText).2⟩
    | false =>
      rw [if_neg Bool.false_ne_true, Bool.and_eq_true, beq_iff_eq]
      constructor
      · rintro ⟨rfl, passes⟩
        exact ⟨[], rest, by simp, passes, rfl⟩
      · rintro ⟨blanks, later, areBlank, passes, isText⟩
        cases blanks with
        | nil =>
          obtain ⟨rfl, rfl⟩ := List.cons.inj isText
          exact ⟨rfl, passes⟩
        | cons first blanks =>
          -- the first character would be a blank
          obtain ⟨rfl, -⟩ := List.cons.inj isText
          exact absurd (areBlank char List.mem_cons_self) (by simp [blank])

theorem quotedNext_eq_true_iff {text : List Char} : quotedNext text = true ↔
    ∃ spaces body left, (∀ char ∈ spaces, isWhitespace char = true) ∧ '"' ∉ body ∧
      text = spaces ++ '"' :: (body ++ '"' :: left) := by
  rw [afterBlanks_iff (by decide) rfl fun _ _ => rfl]
  constructor
  · rintro ⟨spaces, rest, areSpaces, quote, rfl⟩
    obtain ⟨body, left, rfl, noQuote⟩ := List.eq_append_cons_of_mem (List.contains_iff_mem.mp quote)
    exact ⟨spaces, body, left, areSpaces, noQuote, rfl⟩
  · rintro ⟨spaces, body, left, areSpaces, -, rfl⟩
    exact ⟨spaces, _, areSpaces, by simp, rfl⟩

theorem literalNext_eq_true_iff {text : List Char} : literalNext text = true ↔
    ∃ blanks rest, (∀ char ∈ blanks, isWhitespace char = true) ∧ quotedNext rest = true ∧
      text = blanks ++ ':' :: rest :=
  afterBlanks_iff (by decide) rfl fun _ _ => rfl

/-- A literal follows a name exactly when its colon and its quotes do. -/
theorem exists_literalAt_iff {key rest : List Char} (isKey : literalKey.Matches key) :
    (∃ left, LiteralAt (key ++ rest) key left) ↔ literalNext rest = true := by
  rw [literalNext_eq_true_iff]
  constructor
  · rintro ⟨left, -, blanks, spaces, body, areBlank, areSpaces, noQuote, isText⟩
    exact ⟨blanks, _, areBlank, quotedNext_eq_true_iff.mpr ⟨spaces, body, left, areSpaces, noQuote, rfl⟩,
      List.append_cancel_left isText⟩
  · rintro ⟨blanks, _, areBlank, quoted, rfl⟩
    obtain ⟨spaces, body, left, areSpaces, noQuote, rfl⟩ := quotedNext_eq_true_iff.mp quoted
    exact ⟨left, isKey, blanks, spaces, body, areBlank, areSpaces, noQuote, rfl⟩

/-! ## What the first expression leaves -/

/-- All matches of an expression in a text are replaced. -/
abbrev Replaced (find : List Char → Option (List Char × List Char)) : List Char → List Char → Prop :=
  Rewrites find (fun _ _ => True) []

/-- Every literal after a sensitive name is the placeholder. -/
def LiteralsRedacted (text : List Char) : Prop :=
  ∀ after, after <:+ text → ∀ key left, LiteralAt after key left → after = key ++ (redactedLiteral ++ left)

section Literals

variable {text new : List Char}

/-- What is put in starts with a character of a name. -/
theorem exists_of_findLiteral {start left : List Char} (found : findLiteral text = some (start, left)) :
    ∃ first key, isKeyChar first = true ∧ LiteralAt text (first :: key) left ∧
      start = first :: (key ++ redactedLiteral) := by
  obtain ⟨key, literal, rfl⟩ := findLiteral_eq_some_iff.mp found
  obtain ⟨notNil, areKeyChars⟩ := isKeyChar_of_literalKey literal.isKey
  cases key with
  | nil => exact absurd rfl notNil
  | cons first key => exact ⟨first, key, areKeyChars first List.mem_cons_self, literal, rfl⟩

/-- No quote comes to be where there was none. -/
theorem quote_mem_of_replaced (replaced : Replaced findLiteral text new) (quote : '"' ∈ new) :
    '"' ∈ text := by
  by_contra noQuote
  have noQuotes : ∀ char ∈ text, char ≠ '"' := fun char member isQuote => noQuote (isQuote ▸ member)
  refine replaced.forall_mem ?_ noQuotes '"' quote rfl
  intro taken start left found inTaken
  obtain ⟨key, blanks, spaces, body, -, -, -, -, rfl, -⟩ := findLiteral_eq_some found
  exact absurd rfl (inTaken '"' (by simp))

theorem quotedNext_of_replaced (replaced : Replaced findLiteral text new) (quoted : quotedNext new = true) :
    quotedNext text = true := by
  induction replaced with
  | nil => exact quoted
  | @keep char text new _ later inductionHypothesis =>
    rw [quotedNext] at quoted ⊢
    cases blank : isWhitespace char with
    | true =>
      rw [blank, if_pos rfl] at quoted
      exact inductionHypothesis quoted
    | false =>
      simp only [blank, Bool.false_eq_true, if_false, Bool.and_eq_true, List.contains_iff_mem] at quoted ⊢
      exact ⟨quoted.1, quote_mem_of_replaced later quoted.2⟩
  | replace _ found _ _ _ =>
    -- a name is neither blank nor a quote
    obtain ⟨first, key, isKey, -, rfl⟩ := exists_of_findLiteral found
    rw [List.cons_append, quotedNext, isWhitespace_of_isKeyChar isKey] at quoted
    simp [ne_of_isKeyChar isKey (by decide : isKeyChar '"' = false)] at quoted

theorem literalNext_of_replaced (replaced : Replaced findLiteral text new)
    (follows : literalNext new = true) : literalNext text = true := by
  induction replaced with
  | nil => exact follows
  | @keep char text new _ later inductionHypothesis =>
    rw [literalNext] at follows ⊢
    cases blank : isWhitespace char with
    | true =>
      rw [blank, if_pos rfl] at follows
      exact inductionHypothesis follows
    | false =>
      simp only [blank, Bool.false_eq_true, if_false, Bool.and_eq_true] at follows ⊢
      exact ⟨follows.1, quotedNext_of_replaced later follows.2⟩
  | replace _ found _ _ _ =>
    obtain ⟨first, key, isKey, -, rfl⟩ := exists_of_findLiteral found
    rw [List.cons_append, literalNext, isWhitespace_of_isKeyChar isKey] at follows
    simp [ne_of_isKeyChar isKey (by decide : isKeyChar ':' = false)] at follows

/-- No character of a name goes on with a colon and a literal. -/
theorem head_not_isKeyChar {rest : List Char} (follows : literalNext rest = true) :
    ∀ char ∈ rest.head?, isKeyChar char = false := by
  intro char isHead
  cases rest with
  | nil => cases isHead
  | cons first rest =>
    obtain rfl : first = char := by simpa using isHead
    cases isKey : isKeyChar first with
    | false => rfl
    | true =>
      rw [literalNext, isWhitespace_of_isKeyChar isKey] at follows
      simp [ne_of_isKeyChar isKey (by decide : isKeyChar ':' = false)] at follows

theorem redactedLiteral_head {rest : List Char} :
    ∀ char ∈ (redactedLiteral ++ rest).head?, isKeyChar char = false := by
  intro char isHead
  obtain rfl : ':' = char := by simpa [redactedLiteral] using isHead
  decide

/-- A name with a literal after the replacing was one before it. -/
theorem literal_of_replaced (replaced : Replaced findLiteral text new) {key rest : List Char}
    (areKeyChars : ∀ char ∈ key, isKeyChar char = true) (isNew : new = key ++ rest)
    (follows : literalNext rest = true) : ∃ before, text = key ++ before ∧ literalNext before = true := by
  induction replaced generalizing key with
  | nil =>
    obtain ⟨rfl, rfl⟩ := List.append_eq_nil_iff.mp isNew.symm
    exact ⟨[], rfl, follows⟩
  | @keep char text new none later inductionHypothesis =>
    cases key with
    | nil =>
      refine ⟨char :: text, rfl, literalNext_of_replaced (.keep none later) ?_⟩
      rw [isNew]
      exact follows
    | cons first key =>
      obtain ⟨rfl, isRest⟩ := List.cons.inj isNew
      obtain ⟨before, rfl, followed⟩ := inductionHypothesis
        (fun char member => areKeyChars char (List.mem_cons_of_mem _ member)) isRest
      exact ⟨before, rfl, followed⟩
  | @replace taken start text new notNil found _ later _ =>
    rw [List.append_nil] at found
    obtain ⟨key', literal, rfl⟩ := findLiteral_eq_some_iff.mp found
    -- where the name ends is told by the text, so it is the name that was found
    obtain ⟨rfl, -⟩ := run_unique areKeyChars (isKeyChar_of_literalKey literal.isKey).2
      (head_not_isKeyChar follows) redactedLiteral_head (isNew.symm.trans (List.append_assoc _ _ _))
    obtain ⟨isKey, blanks, spaces, body, areBlank, areSpaces, noQuote, isText⟩ := literal
    refine ⟨_, isText, (exists_literalAt_iff isKey).mp ⟨text, isKey, ?_⟩⟩
    exact ⟨blanks, spaces, body, areBlank, areSpaces, noQuote, rfl⟩

theorem LiteralAt.literalNext {key left : List Char} (literal : LiteralAt text key left) :
    ∃ rest, text = key ++ rest ∧ literalNext rest = true := by
  obtain ⟨blanks, spaces, body, areBlank, areSpaces, noQuote, isText⟩ := literal.follows
  refine ⟨_, isText, (exists_literalAt_iff literal.isKey).mp ⟨left, literal.isKey, ?_⟩⟩
  exact ⟨blanks, spaces, body, areBlank, areSpaces, noQuote, rfl⟩

/-- After the characters of a name: a colon and a quoted text. -/
def literalSoon : List Char → Bool
  | [] => false
  | char :: rest => if isKeyChar char then literalSoon rest else literalNext (char :: rest)

/-- The text may start with a name and a literal, by its first characters. -/
def mayBeLiteral (text : List Char) : Bool := text.head?.any isKeyChar && literalSoon text

theorem LiteralAt.mayBeLiteral {key left : List Char} (literal : LiteralAt text key left) :
    mayBeLiteral text = true := by
  obtain ⟨rest, rfl, follows⟩ := literal.literalNext
  obtain ⟨notNil, areKeyChars⟩ := isKeyChar_of_literalKey literal.isKey
  have soon : literalSoon (key ++ rest) = true := by
    clear literal notNil
    induction key with
    | nil =>
      cases rest with
      | nil => cases follows
      | cons char rest =>
        have notKey : isKeyChar char = false := head_not_isKeyChar follows char rfl
        rw [List.nil_append, literalSoon, notKey]
        exact follows
    | cons char key inductionHypothesis =>
      obtain ⟨isKey, others⟩ := List.forall_mem_cons.mp areKeyChars
      rw [List.cons_append, literalSoon, if_pos isKey]
      exact inductionHypothesis others
  cases key with
  | nil => exact absurd rfl notNil
  | cons char key =>
    rw [Interceptors.mayBeLiteral, soon]
    simp [areKeyChars char List.mem_cons_self]

theorem redactedLiteral_eq :
    redactedLiteral = [':', ' ', '"', '[', 'R', 'E', 'D', 'A', 'C', 'T', 'E', 'D', ']', '"'] := by
  decide

/-- No name with a literal starts in what was put in. -/
theorem not_literalAt_of_redactedLiteral {part rest key left : List Char} (isPart : part <:+ redactedLiteral)
    (notNil : part ≠ []) : ¬ LiteralAt (part ++ rest) key left := by
  intro literal
  have may := literal.mayBeLiteral
  rw [redactedLiteral_eq] at isPart
  obtain ⟨count, bound, rfl⟩ := exists_drop_of_suffix isPart notNil
  simp only [List.length_cons, List.length_nil] at bound
  interval_cases count <;> cases may

theorem literalAt_redacted {key : List Char} (isKey : literalKey.Matches key) (left : List Char) :
    LiteralAt (key ++ (redactedLiteral ++ left)) key left :=
  ⟨isKey, [], [' '], redactedPlaceholder.toList, by simp, List.forall_mem_singleton.mpr (by decide),
    by decide, by simp [redactedLiteral]⟩

/-- After the replacing every literal after a sensitive name is the placeholder. -/
theorem literalsRedacted_of_replaced (replaced : Replaced findLiteral text new) : LiteralsRedacted new := by
  induction replaced with
  | nil =>
    intro after suffix key left literal
    rw [List.suffix_nil.mp suffix] at literal
    cases literal.mayBeLiteral
  | @keep char text new none later inductionHypothesis =>
    intro after suffix key left literal
    cases List.suffix_cons_iff.mp suffix with
    | inr inRest => exact inductionHypothesis after inRest key left literal
    | inl whole =>
      -- the same name and a literal were there before, so that they were found
      obtain ⟨rest, isText, follows⟩ := literal.literalNext
      obtain ⟨before, wasText, followed⟩ := literal_of_replaced (.keep none later)
        (isKeyChar_of_literalKey literal.isKey).2 (whole.symm.trans isText) follows
      obtain ⟨left', literal'⟩ := (exists_literalAt_iff literal.isKey).mpr followed
      rw [List.append_nil, wasText, findLiteral_eq_some_iff.mpr ⟨key, literal', rfl⟩] at none
      cases none
  | @replace taken start text new notNil found _ later inductionHypothesis =>
    intro after suffix key left literal
    obtain ⟨key', matched, rfl⟩ := findLiteral_eq_some_iff.mp found
    have nameOfKey := (isKeyChar_of_literalKey matched.isKey).2
    cases suffix_append_cases suffix with
    | inl inRest => exact inductionHypothesis after inRest key left literal
    | inr inStart =>
      obtain ⟨part, isPart, partNotNil, rfl⟩ := inStart
      cases suffix_append_cases isPart with
      | inl inPlaceholder => exact absurd literal (not_literalAt_of_redactedLiteral inPlaceholder partNotNil)
      | inr inName =>
        obtain ⟨name, isName, -, rfl⟩ := inName
        rw [List.append_assoc] at literal ⊢
        obtain ⟨rest, isText, follows⟩ := literal.literalNext
        have nameChars : ∀ char ∈ name, isKeyChar char = true :=
          fun char member => nameOfKey char (isName.subset member)
        obtain ⟨rfl, -⟩ := run_unique nameChars (isKeyChar_of_literalKey literal.isKey).2 redactedLiteral_head
          (head_not_isKeyChar follows) isText
        rw [(literal.unique (literalAt_redacted literal.isKey new)).2]

theorem replaceLiterals_eq_self (redacted : LiteralsRedacted text) : replaceAll findLiteral text = text := by
  apply replaceAll_eq_self consumes_findLiteral
  intro after suffix new left found
  obtain ⟨key, literal, rfl⟩ := findLiteral_eq_some_iff.mp found
  rw [redacted after suffix key left literal, List.append_assoc]

end Literals

/-! ## What the second expression leaves -/

/-- The text starts with a bearer token. -/
def BearerAt (text : List Char) : Prop :=
  ∃ word blanks first rest, (keyword "bearer").Matches word ∧ blanks ≠ [] ∧
    (∀ char ∈ blanks, isWhitespace char = true) ∧ isTokenChar first = true ∧
      text = word ++ (blanks ++ first :: rest)

section Bearers

variable {text new : List Char}

theorem findBearer_eq_some {start left : List Char} (found : findBearer text = some (start, left)) :
    ∃ word blanks token, (keyword "bearer").Matches word ∧
      (blanks ≠ [] ∧ ∀ char ∈ blanks, isWhitespace char = true) ∧
      (token ≠ [] ∧ ∀ char ∈ token, isTokenChar char = true) ∧
      text = word ++ (blanks ++ (token ++ left)) ∧ start = redactedBearer.toList := by
  simp only [findBearer, Option.map_eq_some_iff, Prod.mk.injEq, Prod.exists] at found
  obtain ⟨word, _, found, rfl, rfl⟩ := found
  obtain ⟨taken, isWord, isValue, isText⟩ := Regex.captures_sound found
  obtain ⟨blanks, token, rfl, areBlank, isToken⟩ := isValue
  exact ⟨word, blanks, token, isWord, Regex.matches_some.mp areBlank, Regex.matches_some.mp isToken,
    by simp [isText], rfl⟩

theorem findBearer_eq_none_iff : findBearer text = none ↔ ¬ BearerAt text := by
  constructor
  · rintro none ⟨word, blanks, first, rest, isWord, notNil, areBlank, isToken, rfl⟩
    have isValue : bearerCredentials.Matches (blanks ++ [first]) :=
      ⟨blanks, [first], rfl, Regex.matches_some.mpr ⟨notNil, areBlank⟩,
        Regex.matches_some.mpr ⟨by simp, by simpa using isToken⟩⟩
    rw [findBearer, Option.map_eq_none_iff, Regex.captures_eq_none] at none
    exact none word _ rest isWord isValue (by simp)
  · intro notBearer
    cases found : findBearer text with
    | none => rfl
    | some result =>
      obtain ⟨word, blanks, token, isWord, ⟨notNil, areBlank⟩, ⟨tokenNotNil, areToken⟩, isText, -⟩ :=
        findBearer_eq_some found
      cases token with
      | nil => exact absurd rfl tokenNotNil
      | cons first token =>
        exact absurd ⟨word, blanks, first, token ++ result.2, isWord, notNil, areBlank,
          areToken first List.mem_cons_self, isText⟩ notBearer

theorem consumes_findBearer : Consumes findBearer := by
  intro text new left found
  obtain ⟨word, blanks, token, -, ⟨notNil, -⟩, -, isText, -⟩ := findBearer_eq_some found
  exact ⟨word ++ (blanks ++ token), by simp [notNil], by simp [isText]⟩

/-- The letters of `bearer` in any case. -/
theorem bearer_letters {word : List Char} (isWord : (keyword "bearer").Matches word) :
    ∃ first rest, word = first :: rest ∧ (first = 'b' ∨ first = 'B') ∧
      ∀ char ∈ rest, char ≠ 'b' ∧ char ≠ 'B' := by
  have folded := matches_keyword isWord
  have letters : "bearer".toList = ['b', 'e', 'a', 'r', 'e', 'r'] := by decide
  rw [letters] at folded
  cases folded with
  | @cons _ first _ rest isFirst others =>
    refine ⟨first, rest, rfl, eq_of_caseless (by decide) (by decide) isFirst, fun char member => ?_⟩
    obtain ⟨letter, isLetter, accepted⟩ := exists_letter others char member
    have checked : (['e', 'a', 'r', 'e', 'r'].all fun letter =>
        !caseless letter 'b' && !caseless letter 'B') = true := by
      decide
    have refused := List.all_eq_true.mp checked letter isLetter
    constructor
    · rintro rfl
      simp [accepted] at refused
    · rintro rfl
      simp [accepted] at refused

theorem redactedBearer_eq : redactedBearer.toList =
    'B' :: ['e', 'a', 'r', 'e', 'r', ' ', '[', 'R', 'E', 'D', 'A', 'C', 'T', 'E', 'D', ']'] := by
  decide

/-- The start of what is found is a `b`. -/
theorem exists_of_findBearer {start left : List Char} (found : findBearer text = some (start, left)) :
    ∃ first rest, text = first :: rest ∧ (first = 'b' ∨ first = 'B') := by
  obtain ⟨word, blanks, token, isWord, -, -, rfl, -⟩ := findBearer_eq_some found
  obtain ⟨first, letters, rfl, isB, -⟩ := bearer_letters isWord
  exact ⟨first, _, rfl, isB⟩

/-- What stands before the first token put in stood there before. -/
theorem before_of_replaced (replaced : Replaced findBearer text new) {taken rest : List Char}
    (noB : 'B' ∉ taken) (isNew : new = taken ++ rest) :
    ∃ before, text = taken ++ before ∧ Replaced findBearer before rest := by
  induction replaced generalizing taken with
  | nil =>
    obtain ⟨rfl, rfl⟩ := List.append_eq_nil_iff.mp isNew.symm
    exact ⟨[], rfl, .nil⟩
  | @keep char text new none later inductionHypothesis =>
    cases taken with
    | nil =>
      obtain rfl : char :: new = rest := isNew
      exact ⟨char :: text, rfl, .keep none later⟩
    | cons first taken =>
      obtain ⟨rfl, isRest⟩ := List.cons.inj isNew
      obtain ⟨before, rfl, replacedRest⟩ :=
        inductionHypothesis (fun member => noB (List.mem_cons_of_mem _ member)) isRest
      exact ⟨before, rfl, replacedRest⟩
  | @replace found start text new notNil isFound allowed later _ =>
    cases taken with
    | nil =>
      obtain rfl : start ++ new = rest := isNew
      exact ⟨found ++ text, rfl, .replace notNil isFound allowed later⟩
    | cons first taken =>
      obtain ⟨_, _, _, _, _, _, _, rfl⟩ := findBearer_eq_some isFound
      rw [redactedBearer_eq] at isNew
      obtain ⟨rfl, -⟩ := List.cons.inj isNew
      exact absurd List.mem_cons_self noB

/-- What stands before the first `b` stands there afterwards. -/
theorem after_of_replaced (replaced : Replaced findBearer text new) {taken rest : List Char}
    (noB : ∀ char ∈ taken, char ≠ 'b' ∧ char ≠ 'B') (isText : text = taken ++ rest) :
    ∃ later, new = taken ++ later ∧ Replaced findBearer rest later := by
  induction replaced generalizing taken with
  | nil =>
    obtain ⟨rfl, rfl⟩ := List.append_eq_nil_iff.mp isText.symm
    exact ⟨[], rfl, .nil⟩
  | @keep char text new none later inductionHypothesis =>
    cases taken with
    | nil =>
      obtain rfl : char :: text = rest := isText
      exact ⟨char :: new, rfl, .keep none later⟩
    | cons first taken =>
      obtain ⟨rfl, isRest⟩ := List.cons.inj isText
      obtain ⟨after, rfl, replacedRest⟩ :=
        inductionHypothesis (fun char member => noB char (List.mem_cons_of_mem _ member)) isRest
      exact ⟨after, rfl, replacedRest⟩
  | @replace found start text new notNil isFound allowed later _ =>
    cases taken with
    | nil =>
      obtain rfl : found ++ text = rest := isText
      exact ⟨start ++ new, rfl, .replace notNil isFound allowed later⟩
    | cons first taken =>
      rw [List.append_nil] at isFound
      obtain ⟨char, others, same, isB⟩ := exists_of_findBearer isFound
      obtain ⟨rfl, -⟩ := List.cons.inj (same.symm.trans isText)
      -- a match begins with a letter that is not among those taken
      have notB := noB char List.mem_cons_self
      cases isB with
      | inl lower => exact absurd lower notB.1
      | inr upper => exact absurd upper notB.2

theorem quote_mem_of_replacedBearers (replaced : Replaced findBearer text new) (quote : '"' ∈ new) :
    '"' ∈ text := by
  by_contra noQuote
  have noQuotes : ∀ char ∈ text, char ≠ '"' := fun char member isQuote => noQuote (isQuote ▸ member)
  refine replaced.forall_mem ?_ noQuotes '"' quote rfl
  intro taken start left found _ char member
  obtain ⟨_, _, _, _, _, _, _, rfl⟩ := findBearer_eq_some found
  rintro rfl
  exact absurd member (by decide)

/-- No bearer token starts in what was put in for one. -/
theorem not_bearerAt_of_redactedBearer {part rest : List Char} (isPart : part <:+ redactedBearer.toList)
    (notNil : part ≠ []) : ¬ BearerAt (part ++ rest) := by
  rw [redactedBearer_eq] at isPart
  cases List.suffix_cons_iff.mp isPart with
  | inl whole =>
    rw [whole, ← findBearer_eq_none_iff]
    rfl
  | inr inRest =>
    rintro ⟨word, blanks, first, after, isWord, -, -, -, isText⟩
    obtain ⟨letter, letters, rfl, isB, -⟩ := bearer_letters isWord
    cases part with
    | nil => exact notNil rfl
    | cons head part =>
      obtain ⟨rfl, -⟩ := List.cons.inj isText
      have member := inRest.subset List.mem_cons_self
      revert member
      cases isB with
      | inl lower => rw [lower]; decide
      | inr upper => rw [upper]; decide

/-- No bearer token is left, and none comes to be. -/
theorem not_bearerAt_of_replaced (replaced : Replaced findBearer text new) {after : List Char}
    (suffix : after <:+ new) : ¬ BearerAt after := by
  induction replaced with
  | nil =>
    rw [List.suffix_nil.mp suffix]
    rintro ⟨word, blanks, first, rest, -, -, -, -, isText⟩
    simp at isText
  | @keep char text new none later inductionHypothesis =>
    cases List.suffix_cons_iff.mp suffix with
    | inr inRest => exact inductionHypothesis inRest
    | inl whole =>
      rintro ⟨word, blanks, first, rest, isWord, notNil, areBlank, isToken, isText⟩
      obtain ⟨letter, letters, rfl, isB, others⟩ := bearer_letters isWord
      obtain ⟨rfl, isNew⟩ := List.cons.inj (whole.symm.trans isText)
      have noB : 'B' ∉ letters ++ blanks := by
        intro member
        cases List.mem_append.mp member with
        | inl inLetters => exact (others 'B' inLetters).2 rfl
        | inr inBlanks => exact absurd (areBlank 'B' inBlanks) (by decide)
      obtain ⟨before, rfl, replacedRest⟩ := before_of_replaced later noB
        (isNew.trans (List.append_assoc letters blanks (first :: rest)).symm)
      -- a token that starts with what was put in started with a `b` before
      have token : ∃ start others, before = start :: others ∧ isTokenChar start = true := by
        generalize isRest : first :: rest = left at replacedRest
        cases replacedRest with
        | nil => cases isRest
        | keep _ _ =>
          obtain ⟨rfl, -⟩ := List.cons.inj isRest
          exact ⟨_, _, rfl, isToken⟩
        | replace _ isFound _ _ =>
          rw [List.append_nil] at isFound
          obtain ⟨start, others, isBefore, startsB⟩ := exists_of_findBearer isFound
          refine ⟨start, others, isBefore, ?_⟩
          cases startsB with
          | inl lower => rw [lower]; decide
          | inr upper => rw [upper]; decide
      obtain ⟨start, others, rfl, isStart⟩ := token
      rw [List.append_nil, findBearer_eq_none_iff] at none
      exact none ⟨char :: letters, blanks, start, others, isWord, notNil, areBlank, isStart, by simp⟩
  | replace _ isFound _ _ inductionHypothesis =>
    obtain ⟨_, _, _, _, _, _, _, rfl⟩ := findBearer_eq_some isFound
    cases suffix_append_cases suffix with
    | inl inRest => exact inductionHypothesis inRest
    | inr inStart =>
      obtain ⟨part, isPart, notNil, rfl⟩ := inStart
      exact not_bearerAt_of_redactedBearer isPart notNil

theorem replaceBearers_eq_self (none : ∀ after, after <:+ text → ¬ BearerAt after) :
    replaceAll findBearer text = text := by
  apply replaceAll_eq_self consumes_findBearer
  intro after suffix new left found
  rw [findBearer_eq_none_iff.mpr (none after suffix)] at found
  cases found

/-- No name with a literal starts in what was put in for a bearer token. -/
theorem not_literalAt_of_redactedBearer {part rest key left : List Char}
    (isPart : part <:+ redactedBearer.toList) (notNil : part ≠ []) : ¬ LiteralAt (part ++ rest) key left := by
  intro literal
  have may := literal.mayBeLiteral
  rw [redactedBearer_eq] at isPart
  obtain ⟨count, bound, rfl⟩ := exists_drop_of_suffix isPart notNil
  simp only [List.length_cons, List.length_nil] at bound
  interval_cases count <;> cases may

theorem not_b_of_redactedLiteral : ∀ char ∈ redactedLiteral, char ≠ 'b' ∧ char ≠ 'B' := by
  have checked : (redactedLiteral.all fun char => char != 'b' && char != 'B') = true := by decide
  intro char member
  simpa using List.all_eq_true.mp checked char member

theorem not_b_of_isKeyChar {char : Char} (isKey : isKeyChar char = true) : char ≠ 'b' ∧ char ≠ 'B' :=
  ⟨ne_of_isKeyChar isKey (by decide), ne_of_isKeyChar isKey (by decide)⟩

/-- Replacing bearer tokens leaves every literal the placeholder, and makes no other. -/
theorem literalsRedacted_of_replacedBearers (replaced : Replaced findBearer text new)
    (redacted : LiteralsRedacted text) : LiteralsRedacted new := by
  induction replaced with
  | nil => exact redacted
  | @keep char text new none later inductionHypothesis =>
    intro after suffix key left literal
    cases List.suffix_cons_iff.mp suffix with
    | inr inRest =>
      refine inductionHypothesis (fun after suffix => ?_) after inRest key left literal
      exact redacted after (suffix.trans (List.suffix_cons _ _))
    | inl whole =>
      subst whole
      obtain ⟨isKey, blanks, spaces, body, areBlank, areSpaces, noQuote, isText⟩ := literal
      have keyChars := (isKeyChar_of_literalKey isKey).2
      -- up to the opening quote all is as it was, and the closing quote was there as well
      have noB : 'B' ∉ key ++ (blanks ++ ':' :: (spaces ++ ['"'])) := by
        simp only [List.mem_append, List.mem_cons, List.not_mem_nil, or_false, not_or]
        refine ⟨fun inKey => (not_b_of_isKeyChar (keyChars _ inKey)).2 rfl, fun inBlanks => ?_, by decide,
          fun inSpaces => ?_, by decide⟩
        · exact absurd (areBlank _ inBlanks) (by decide)
        · exact absurd (areSpaces _ inSpaces) (by decide)
      have throughQuote : char :: new =
          (key ++ (blanks ++ ':' :: (spaces ++ ['"']))) ++ (body ++ '"' :: left) := by
        simp [isText]
      obtain ⟨before, wasText, replacedRest⟩ := before_of_replaced (.keep none later) noB throughQuote
      obtain ⟨body', left', rfl, noQuote'⟩ :=
        List.eq_append_cons_of_mem (quote_mem_of_replacedBearers replacedRest (by simp))
      have wasLiteral : LiteralAt (char :: text) key left' :=
        ⟨isKey, blanks, spaces, body', areBlank, areSpaces, noQuote', by simp [wasText]⟩
      -- so it was the placeholder, in which no `b` is
      have wasRedacted := redacted _ (List.suffix_refl _) key left' wasLiteral
      have kept : ∀ char ∈ key ++ redactedLiteral, char ≠ 'b' ∧ char ≠ 'B' := by
        intro char member
        cases List.mem_append.mp member with
        | inl inKey => exact not_b_of_isKeyChar (keyChars char inKey)
        | inr inPlaceholder => exact not_b_of_redactedLiteral char inPlaceholder
      obtain ⟨left'', isNew, -⟩ := after_of_replaced (.keep none later) kept
        (wasRedacted.trans (List.append_assoc _ _ _).symm)
      rw [List.append_assoc] at isNew
      have isLiteral : LiteralAt (char :: new) key left :=
        ⟨isKey, blanks, spaces, body, areBlank, areSpaces, noQuote, isText⟩
      rw [isNew] at isLiteral ⊢
      rw [(isLiteral.unique (literalAt_redacted isKey left'')).2]
  | @replace taken start text new notNil isFound _ later inductionHypothesis =>
    intro after suffix key left literal
    obtain ⟨_, _, _, _, _, _, _, rfl⟩ := findBearer_eq_some isFound
    cases suffix_append_cases suffix with
    | inl inRest =>
      refine inductionHypothesis (fun after suffix => ?_) after inRest key left literal
      exact redacted after (suffix.trans (List.suffix_append _ _))
    | inr inStart =>
      obtain ⟨part, isPart, partNotNil, rfl⟩ := inStart
      exact absurd literal (not_literalAt_of_redactedBearer isPart partNotNil)

end Bearers

/-! ## Doing it again -/

theorem sanitizeGqlQueryStr_toList (query : String) : (sanitizeGqlQueryStr queryPatterns query).toList =
    replaceAll findBearer (replaceAll findLiteral query.toList) := by
  simp [sanitizeGqlQueryStr, queryPatterns]

/-- A sanitized query text is not changed again. -/
theorem sanitizeGqlQueryStr_idempotent (query : String) :
    sanitizeGqlQueryStr queryPatterns (sanitizeGqlQueryStr queryPatterns query) =
      sanitizeGqlQueryStr queryPatterns query := by
  apply String.toList_injective
  rw [sanitizeGqlQueryStr_toList, sanitizeGqlQueryStr_toList]
  have literals := rewrites_replaceAll consumes_findLiteral query.toList
  have bearers := rewrites_replaceAll consumes_findBearer (replaceAll findLiteral query.toList)
  rw [replaceLiterals_eq_self (literalsRedacted_of_replacedBearers bearers
    (literalsRedacted_of_replaced literals))]
  exact replaceBearers_eq_self fun after suffix => not_bearerAt_of_replaced bearers suffix

theorem maskValue_idempotent (value : Json) : maskValue (maskValue value) = maskValue value := by
  have placeholder : maskText redactedPlaceholder = redactedPlaceholder := by decide
  have bearer : maskText redactedBearer = redactedBearer := by decide
  cases isPlaceholder_maskValue value with
  | inl same => rw [same, maskValue, placeholder]
  | inr same => rw [same, maskValue, bearer]

theorem maskBearer_idempotent (text : String) : maskBearer (maskBearer text) = maskBearer text := by
  have placeholder : maskBearer redactedBearer = redactedBearer := by decide
  cases isToken : isBearer text with
  | true => rw [show maskBearer text = redactedBearer by simp [maskBearer, isToken], placeholder]
  | false => simp [maskBearer, isToken]

theorem sanitizeQuery_idempotent (value : Json) :
    sanitizeQuery queryPatterns (sanitizeQuery queryPatterns value) = sanitizeQuery queryPatterns value := by
  cases value with
  | string query => rw [sanitizeQuery, sanitizeQuery, sanitizeGqlQueryStr_idempotent]
  | null | bool _ | number _ | array _ | object _ => rfl

namespace Sanitizer

mutual

theorem sanitizeValueDepth_idempotent (sanitizer : Sanitizer) (depth : Nat) : ∀ value : Json,
    sanitizer.sanitizeValueDepth queryPatterns depth (sanitizer.sanitizeValueDepth queryPatterns depth value) =
      sanitizer.sanitizeValueDepth queryPatterns depth value
  | .null => rfl
  | .bool _ => rfl
  | .number _ => rfl
  | .string text => by
    by_cases deep : depth > 64
    · simp [sanitizeValueDepth, deep]
    · simp [sanitizeValueDepth, deep, maskBearer_idempotent]
  | .array items => by
    by_cases deep : depth > 64
    · simp [sanitizeValueDepth, deep]
    · simp [sanitizeValueDepth, deep, sanitizeItems_idempotent sanitizer (depth + 1) items]
  | .object members => by
    by_cases deep : depth > 64
    · simp [sanitizeValueDepth, deep]
    · simp [sanitizeValueDepth, deep, sanitizeMembers_idempotent sanitizer (depth + 1) members]

theorem sanitizeItems_idempotent (sanitizer : Sanitizer) (depth : Nat) : ∀ items : List Json,
    sanitizer.sanitizeItems queryPatterns depth (sanitizer.sanitizeItems queryPatterns depth items) =
      sanitizer.sanitizeItems queryPatterns depth items
  | [] => rfl
  | item :: items => by
    rw [sanitizeItems, sanitizeItems, sanitizeValueDepth_idempotent sanitizer depth item,
      sanitizeItems_idempotent sanitizer depth items]

theorem sanitizeMembers_idempotent (sanitizer : Sanitizer) (depth : Nat) : ∀ members : List (String × Json),
    sanitizer.sanitizeMembers queryPatterns depth (sanitizer.sanitizeMembers queryPatterns depth members) =
      sanitizer.sanitizeMembers queryPatterns depth members
  | [] => rfl
  | (name, value) :: members => by
    rw [sanitizeMembers, sanitizeMembers, sanitizeMembers_idempotent sanitizer depth members]
    cases isSensitive : sanitizer.isSensitiveKey name with
    | true => simp only [if_true, maskValue_idempotent]
    | false =>
      cases isQuery : isQueryKey name with
      | true => simp only [Bool.false_eq_true, if_false, if_true, sanitizeQuery_idempotent]
      | false =>
        simp only [Bool.false_eq_true, if_false, sanitizeValueDepth_idempotent sanitizer depth value]

end

end Sanitizer

end SpectraGQL.Interceptors
