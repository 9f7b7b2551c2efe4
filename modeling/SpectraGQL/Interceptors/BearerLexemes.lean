import SpectraGQL.Interceptors.QueryText
import SpectraGQL.Protocol.Lexemes

/-! # Bearer tokens in documents (`interceptors/sanitizer.rs`, `sanitize_gql_query_str`)

The second expression knows nothing of lexemes.  Where each token stays in a comment or a string and
none follows a backslash, the lexemes of a document are rewritten one by one (`exists_bearerLexemes`):
what is put in for a token leads from any other mode of the lexer to the mode that the token
leads to (`run_bearer`).
-/

namespace SpectraGQL.Interceptors

open Data SpectraGQL.Http SpectraGQL.Protocol

/-! ## Where a bearer token ends -/

section Bearers

variable {text new part other : List Char}

theorem isWhitespace_of_isTokenChar {char : Char} (isToken : isTokenChar char = true) :
    isWhitespace char = false := by
  rw [isTokenChar, Bool.or_eq_true] at isToken
  cases isToken with
  | inl alphanum =>
    have code : (65 ≤ char.toNat ∧ char.toNat ≤ 90) ∨ (97 ≤ char.toNat ∧ char.toNat ≤ 122) ∨
        (48 ≤ char.toNat ∧ char.toNat ≤ 57) := by
      unfold Char.isAlphanum Char.isDigit at alphanum
      rw [Bool.or_eq_true] at alphanum
      cases alphanum with
      | inl alpha => exact (code_of_isAlpha alpha).imp_right Or.inl
      | inr digit => exact .inr (.inr (by simpa [UInt32.le_iff_toNat_le] using digit))
    simp only [isWhitespace, Bool.or_eq_false_iff, Bool.and_eq_false_iff, decide_eq_false_iff_not,
      beq_eq_false_iff_ne]
    omega
  | inr other =>
    have checked : (['-', '_', '.', '~', '+', '/', '=', 'ſ', '\u212a'].all fun char => !isWhitespace char) = true := by
      decide
    simpa using List.all_eq_true.mp checked char (List.contains_iff_mem.mp other)

/-- The word, letter by letter. -/
theorem bearer_word {word : List Char} (isWord : (keyword "bearer").Matches word) :
    List.Forall₂ (fun letter char => char = letter ∨ char = letter.toUpper) ['b', 'e', 'a', 'r', 'e', 'r'] word := by
  have folded := matches_keyword isWord
  have spelled : "bearer".toList = ['b', 'e', 'a', 'r', 'e', 'r'] := by decide
  rw [spelled] at folded
  have plain : ∀ letter ∈ ['b', 'e', 'a', 'r', 'e', 'r'], letter ≠ 's' ∧ letter ≠ 'k' := by simp
  generalize ['b', 'e', 'a', 'r', 'e', 'r'] = letters at folded plain
  clear isWord spelled
  induction folded with
  | nil => exact .nil
  | cons accepted _ inductionHypothesis =>
    obtain ⟨⟨notS, notK⟩, others⟩ := List.forall_mem_cons.mp plain
    exact .cons (eq_of_caseless notS notK accepted) (inductionHypothesis others)

/-- What is true of the letters in both cases is true of the characters of the word. -/
theorem forall_bearer (accepts : Char → Bool) {word : List Char} (isWord : (keyword "bearer").Matches word)
    (letters : (['b', 'B', 'e', 'E', 'a', 'A', 'r', 'R'].all accepts) = true) :
    ∀ char ∈ word, accepts char = true := by
  have checked : ∀ letter ∈ ['b', 'e', 'a', 'r', 'e', 'r'], accepts letter = true ∧ accepts letter.toUpper = true := by
    simpa [and_assoc, and_left_comm] using letters
  have isCase := bearer_word isWord
  generalize ['b', 'e', 'a', 'r', 'e', 'r'] = spelled at checked isCase
  clear isWord
  induction isCase with
  | nil => simp
  | cons isLetter _ inductionHypothesis =>
    obtain ⟨⟨lower, upper⟩, others⟩ := List.forall_mem_cons.mp checked
    refine List.forall_mem_cons.mpr ⟨?_, inductionHypothesis others⟩
    cases isLetter with
    | inl isLower => rwa [isLower]
    | inr isUpper => rwa [isUpper]

/-- A token is as long as it can be. -/
theorem findBearer_exhausts {start left : List Char} (found : findBearer text = some (start, left)) :
    ∀ char ∈ left.head?, isTokenChar char = false := by
  simp only [findBearer, Option.map_eq_some_iff, Prod.mk.injEq, Prod.exists] at found
  obtain ⟨word, _, found, -, rfl⟩ := found
  exact Regex.captures_exhausts (Regex.exhausts_seq_some isTokenChar (.some isWhitespace)) found

theorem head_of_run {accepts : Char → Bool} {run rest : List Char} (notNil : run ≠ [])
    (all : ∀ char ∈ run, accepts char = true) : ∀ char ∈ (run ++ rest).head?, accepts char = true := by
  intro char isHead
  cases run with
  | nil => exact absurd rfl notNil
  | cons first run =>
    obtain rfl : first = char := by simpa using isHead
    exact all first List.mem_cons_self

/-- The same token is found before anything else that does not go on with it. -/
theorem findBearer_append {taken start left other : List Char}
    (found : findBearer (taken ++ left) = some (start, left))
    (stops : ∀ char ∈ other.head?, isTokenChar char = false) :
    findBearer (taken ++ other) = some (start, other) := by
  obtain ⟨word, blanks, token, isWord, ⟨notNil, areBlank⟩, ⟨tokenNotNil, areToken⟩, isText, rfl⟩ :=
    findBearer_eq_some found
  have isTaken : taken ++ left = word ++ (blanks ++ token) ++ left := by simp [isText]
  obtain rfl := List.append_cancel_right isTaken
  cases again : findBearer (word ++ (blanks ++ token) ++ other) with
  | none =>
    obtain ⟨first, rest, rfl⟩ := List.exists_cons_of_ne_nil tokenNotNil
    exact absurd ⟨word, blanks, first, rest ++ other, isWord, notNil, areBlank,
      areToken first List.mem_cons_self, by simp⟩ (findBearer_eq_none_iff.mp again)
  | some result =>
    obtain ⟨start', left'⟩ := result
    obtain ⟨word', blanks', token', isWord', ⟨notNil', areBlank'⟩, ⟨tokenNotNil', areToken'⟩, isText', rfl⟩ :=
      findBearer_eq_some again
    -- word, white space and token end where another character comes
    have endsWord : ∀ {blanks rest : List Char}, blanks ≠ [] → (∀ char ∈ blanks, isWhitespace char = true) →
        ∀ char ∈ (blanks ++ rest).head?, (!isWhitespace char) = false := by
      intro blanks rest notNil areBlank char isHead
      rw [head_of_run notNil areBlank char isHead]
      rfl
    have endsBlanks : ∀ {token rest : List Char}, token ≠ [] → (∀ char ∈ token, isTokenChar char = true) →
        ∀ char ∈ (token ++ rest).head?, isWhitespace char = false :=
      fun notNil areToken char isHead =>
        isWhitespace_of_isTokenChar (head_of_run notNil areToken char isHead)
    have notBlank : ∀ {word : List Char}, (keyword "bearer").Matches word →
        ∀ char ∈ word, (!isWhitespace char) = true :=
      fun isWord => forall_bearer (fun char => !isWhitespace char) isWord (by decide)
    simp only [List.append_assoc] at isText'
    obtain ⟨-, afterWord⟩ := @run_unique Char (fun char => !isWhitespace char) _ _ _ _ (notBlank isWord)
      (notBlank isWord') (endsWord notNil areBlank) (endsWord notNil' areBlank') isText'
    obtain ⟨-, afterBlanks⟩ := run_unique areBlank areBlank' (endsBlanks tokenNotNil areToken)
      (endsBlanks tokenNotNil' areToken') afterWord
    obtain ⟨-, rfl⟩ := run_unique areToken areToken' stops (findBearer_exhausts again) afterBlanks
    rfl

/-- A character that may occur in what is replaced for a token. -/
def isBearerChar (char : Char) : Bool := isWhitespace char || isTokenChar char

theorem isBearerChar_of_found {taken start left : List Char}
    (found : findBearer (taken ++ left) = some (start, left)) : ∀ char ∈ taken, isBearerChar char = true := by
  obtain ⟨word, blanks, token, isWord, ⟨-, areBlank⟩, ⟨-, areToken⟩, isText, -⟩ := findBearer_eq_some found
  have isTaken : taken ++ left = word ++ (blanks ++ token) ++ left := by simp [isText]
  obtain rfl := List.append_cancel_right isTaken
  simp only [List.forall_mem_append]
  refine ⟨forall_bearer isBearerChar isWord (by decide), fun char member => ?_, fun char member => ?_⟩
  · simp [isBearerChar, areBlank char member]
  · simp [isBearerChar, areToken char member]

/-- A token is told by the first character after the white space, and those before it. -/
theorem BearerAt.exists_prefix (bearer : BearerAt text) : ∃ taken rest, text = taken ++ rest ∧
    (∀ char ∈ taken, isBearerChar char = true) ∧ ∀ other, BearerAt (taken ++ other) := by
  obtain ⟨word, blanks, first, rest, isWord, notNil, areBlank, isToken, rfl⟩ := bearer
  refine ⟨word ++ (blanks ++ [first]), rest, by simp, ?_, fun other => ?_⟩
  · simp only [List.forall_mem_append, List.forall_mem_singleton]
    refine ⟨forall_bearer isBearerChar isWord (by decide), fun char member => ?_, ?_⟩
    · simp [isBearerChar, areBlank char member]
    · simp [isBearerChar, isToken]
  · exact ⟨word, blanks, first, other, isWord, notNil, areBlank, isToken, by simp⟩

/-- What comes after a character that cannot be in a token does not matter. -/
theorem BearerAt.of_append (bearer : BearerAt (part ++ other)) (stops : ∃ char ∈ part, isBearerChar char = false) :
    BearerAt part := by
  obtain ⟨taken, rest, same, all, isBearer⟩ := bearer.exists_prefix
  cases List.append_eq_append_iff.mp same with
  | inl within =>
    obtain ⟨more, rfl, -⟩ := within
    obtain ⟨char, member, refused⟩ := stops
    have accepted := all char (List.mem_append_left _ member)
    rw [refused] at accepted
    cases accepted
  | inr whole =>
    obtain ⟨more, rfl, -⟩ := whole
    exact isBearer more

theorem quote_mem_of_suffix (suffix : part <:+ text ++ ['"']) (notNil : part ≠ []) : '"' ∈ part := by
  cases suffix_append_cases suffix with
  | inl inLast =>
    cases List.suffix_cons_iff.mp inLast with
    | inl whole => simp [whole]
    | inr isNil => exact absurd (List.suffix_nil.mp isNil) notNil
  | inr inText =>
    obtain ⟨before, -, -, rfl⟩ := inText
    simp

/-- What ends with a quotation mark is rewritten in the same way whatever comes after it. -/
theorem rewrites_of_quote {allowed : List Char → List Char → Prop}
    (rewrites : Rewrites findBearer allowed [] (text ++ ['"']) new) (rest : List Char) :
    Rewrites findBearer (fun _ _ => True) rest (text ++ ['"']) new := by
  apply rewrites.of_rest
  · intro part suffix notNil none
    rw [List.append_nil, findBearer_eq_none_iff] at none
    rw [findBearer_eq_none_iff]
    exact fun bearer => none (bearer.of_append ⟨'"', quote_mem_of_suffix suffix notNil, by decide⟩)
  · intro taken start left suffix found
    rw [List.append_nil] at found
    obtain ⟨_, notNil, isTaken⟩ := consumes_findBearer found
    have quote := quote_mem_of_suffix suffix (by simp [List.append_cancel_right isTaken, notNil])
    -- the quotation mark stands after the token
    cases List.mem_append.mp quote with
    | inl inTaken => exact absurd (isBearerChar_of_found found '"' inTaken) (by decide)
    | inr inLeft =>
      obtain ⟨first, others, rfl⟩ := List.exists_cons_of_ne_nil (List.ne_nil_of_mem inLeft)
      have stops := findBearer_exhausts found
      exact findBearer_append found (by simpa using stops)

/-- The same tokens are found before a rest that starts with the same character, if no more start. -/
theorem rewrites_of_head {rest : List Char} (rewrites : Rewrites findBearer (fun _ _ => True) rest text new)
    (sameHead : other.head? = rest.head?)
    (bearers : ∀ part, part <:+ text → BearerAt (part ++ other) → BearerAt (part ++ rest)) :
    Rewrites findBearer (fun _ _ => True) other text new := by
  apply rewrites.of_rest
  · intro part suffix _ none
    rw [findBearer_eq_none_iff] at none ⊢
    exact fun bearer => none (bearers part suffix bearer)
  · intro taken start left _ found
    refine findBearer_append found ?_
    have stops := findBearer_exhausts found
    rw [List.head?_append] at stops ⊢
    rwa [sameHead]

theorem findBearer_of_not_b {first : Char} (notB : first ≠ 'b' ∧ first ≠ 'B') (left : List Char) :
    findBearer (first :: left) = none := by
  cases found : findBearer (first :: left) with
  | none => rfl
  | some result =>
    obtain ⟨char, others, same, isB⟩ := exists_of_findBearer found
    obtain ⟨rfl, -⟩ := List.cons.inj same
    cases isB with
    | inl lower => exact absurd lower notB.1
    | inr upper => exact absurd upper notB.2

end Bearers

/-! ## Bearer tokens in a lexeme -/

section Modes

variable {mode last : Mode} {text new taken left start rest : List Char}

/-- Characters that mean nothing in a string. -/
def isQuiet (char : Char) : Bool := char != '"' && char != '\\'

theorem isQuiet_of_isBearerChar {char : Char} (isBearer : isBearerChar char = true) : isQuiet char = true := by
  rw [isQuiet, Bool.and_eq_true, bne_iff_ne, bne_iff_ne]
  constructor
  · rintro rfl
    cases isBearer
  · rintro rfl
    cases isBearer

theorem run_characters (quiet : ∀ char ∈ text, isQuiet char = true)
    (runs : lexer.run .characters text = some last) : last = .characters := by
  induction text with
  | nil =>
    cases runs
    rfl
  | cons char text inductionHypothesis =>
    obtain ⟨isQuiet, others⟩ := List.forall_mem_cons.mp quiet
    obtain ⟨next, stepped, runs⟩ := Option.bind_eq_some_iff.mp runs
    have step : characterStep .stringEnd char = some next := stepped
    simp only [Interceptors.isQuiet, Bool.and_eq_true, bne_iff_ne] at isQuiet
    simp only [characterStep, beq_iff_eq, isQuiet, if_false, Option.ite_none_right_eq_some] at step
    obtain ⟨-, ⟨⟩⟩ := step
    exact inductionHypothesis others runs

theorem run_block {escaped : Bool} {quotes : Nat} (notNil : text ≠ []) (quiet : ∀ char ∈ text, isQuiet char = true)
    (runs : lexer.run (.block escaped quotes) text = some last) : last = .block false 0 := by
  induction text generalizing escaped quotes with
  | nil => exact absurd rfl notNil
  | cons char text inductionHypothesis =>
    obtain ⟨isQuiet, others⟩ := List.forall_mem_cons.mp quiet
    obtain ⟨next, stepped, runs⟩ := Option.bind_eq_some_iff.mp runs
    have step : blockStep escaped quotes char = some next := stepped
    simp only [Interceptors.isQuiet, Bool.and_eq_true, bne_iff_ne] at isQuiet
    simp only [blockStep, beq_iff_eq, isQuiet, if_false, Option.ite_none_right_eq_some] at step
    obtain ⟨-, ⟨⟩⟩ := step
    cases text with
    | nil =>
      cases runs
      rfl
    | cons next text => exact inductionHypothesis (List.cons_ne_nil _ _) others runs

theorem isWhitespace_of_isNameContinue {char : Char} (continues : isNameContinue char = true) :
    isWhitespace char = false := by
  simp only [isNameContinue, isNameStart, isLetter, Protocol.isDigit, Bool.or_eq_true, Bool.and_eq_true, beq_iff_eq,
    decide_eq_true_eq] at continues
  rcases continues with ((upper | lower) | rfl) | digit
  · simp [isWhitespace]
    omega
  · simp [isWhitespace]
    omega
  · decide
  · simp [isWhitespace]
    omega

/-- The digits of an escape may reach into the word, up to its `r`. -/
theorem run_unicode_bearer {digits : Nat} {word : List Char} (isWord : (keyword "bearer").Matches word)
    (quiet : ∀ char ∈ word ++ text, isQuiet char = true)
    (runs : lexer.run (.unicode digits) (word ++ text) = some last) : digits ≤ 3 ∧ last = .characters := by
  have step : ∀ {digits : Nat} {char : Char} {rest : List Char}, lexer.run (.unicode digits) (char :: rest) =
      if isHexDigit char then lexer.run (if digits ≤ 1 then .characters else .unicode (digits - 1)) rest
      else none := by
    intro digits char rest
    have isStep : lexer.step (.unicode digits) char =
        if isHexDigit char then some (if digits ≤ 1 then .characters else .unicode (digits - 1)) else none := rfl
    rw [Tokenizer.run_cons, isStep]
    split <;> rfl
  obtain ⟨b, _, isB, fromE, rfl⟩ := List.forall₂_cons_left_iff.mp (bearer_word isWord)
  obtain ⟨e, _, isE, fromA, rfl⟩ := List.forall₂_cons_left_iff.mp fromE
  obtain ⟨a, _, isA, fromR, rfl⟩ := List.forall₂_cons_left_iff.mp fromA
  obtain ⟨r, rest, isR, -, rfl⟩ := List.forall₂_cons_left_iff.mp fromR
  have hexB : isHexDigit b = true := by rcases isB with rfl | rfl <;> decide
  have hexE : isHexDigit e = true := by rcases isE with rfl | rfl <;> decide
  have hexA : isHexDigit a = true := by rcases isA with rfl | rfl <;> decide
  have notHexR : isHexDigit r = false := by rcases isR with rfl | rfl <;> decide
  simp only [List.cons_append] at quiet runs
  have quietE := (List.forall_mem_cons.mp quiet).2
  have quietA := (List.forall_mem_cons.mp quietE).2
  have quietR := (List.forall_mem_cons.mp quietA).2
  -- b, e and a are hexadecimal digits, r is none
  match digits with
  | 0 | 1 =>
    rw [step, if_pos hexB] at runs
    exact ⟨by omega, run_characters quietE runs⟩
  | 2 =>
    rw [step, if_pos hexB, if_neg (by decide), step, if_pos hexE] at runs
    exact ⟨by omega, run_characters quietA runs⟩
  | 3 =>
    rw [step, if_pos hexB, if_neg (by decide), step, if_pos hexE, if_neg (by decide), step, if_pos hexA] at runs
    exact ⟨by omega, run_characters quietR runs⟩
  | digits + 4 =>
    rw [step, if_pos hexB, if_neg (by omega), step, if_pos hexE, if_neg (by omega), step, if_pos hexA,
      if_neg (by omega), step, notHexR] at runs
    cases runs

/-- What is put in for a token leads to the same mode as the token, but after a backslash. -/
theorem run_bearer (notEscape : mode ≠ .escape) (found : findBearer (taken ++ left) = some (start, left))
    (runs : lexer.run mode taken = some last) : lexer.run mode start = some last := by
  have quiet : ∀ char ∈ taken, isQuiet char = true :=
    fun char member => isQuiet_of_isBearerChar (isBearerChar_of_found found char member)
  obtain ⟨word, blanks, token, isWord, ⟨notNil, areBlank⟩, ⟨tokenNotNil, areToken⟩, isText, rfl⟩ :=
    findBearer_eq_some found
  have isTaken : taken ++ left = word ++ (blanks ++ token) ++ left := by simp [isText]
  obtain rfl := List.append_cancel_right isTaken
  rw [redactedBearer_eq]
  obtain ⟨first, letters, rfl, isB, -⟩ := bearer_letters isWord
  -- white space does not stand in names
  have noName : ∀ {before : List Char}, lexer.run .name (before ++ (blanks ++ token)) ≠ some last := by
    intro before runs
    obtain ⟨blank, blanks, rfl⟩ := List.exists_cons_of_ne_nil notNil
    have continues := (run_name runs).2 blank (by simp)
    have isBlank := areBlank blank List.mem_cons_self
    rw [isWhitespace_of_isNameContinue continues] at isBlank
    cases isBlank
  cases mode with
  | escape => exact absurd rfl notEscape
  | comment =>
    obtain ⟨rfl, -⟩ := run_comment_iff.mp runs
    rfl
  | characters =>
    obtain rfl := run_characters quiet runs
    rfl
  | block escaped quotes =>
    obtain rfl := run_block (by simp) quiet runs
    rfl
  | name => exact absurd runs noName
  | start =>
    have afterB : lexer.run .name (letters ++ (blanks ++ token)) = some last := by
      cases isB with
      | inl lower => rwa [lower] at runs
      | inr upper => rwa [upper] at runs
    exact absurd afterB noName
  | quote =>
    have afterB : lexer.run .characters (letters ++ (blanks ++ token)) = some last := by
      cases isB with
      | inl lower => rwa [lower] at runs
      | inr upper => rwa [upper] at runs
    obtain rfl := run_characters (List.forall_mem_cons.mp quiet).2 afterB
    rfl
  | unicode digits =>
    obtain ⟨few, rfl⟩ := run_unicode_bearer isWord quiet runs
    interval_cases digits <;> rfl
  | _ =>
    cases isB with
    | inl lower =>
      rw [lower] at runs
      cases runs
    | inr upper =>
      rw [upper] at runs
      cases runs

/-- Replacing tokens leads to the same mode, if none is after a backslash. -/
theorem run_rewritten (rewrites : Rewrites findBearer (fun _ _ => True) rest text new)
    (unescaped : ∀ before after, text = before ++ after → lexer.run mode before = some .escape →
      findBearer (after ++ rest) = none)
    (runs : lexer.run mode text = some last) : lexer.run mode new = some last := by
  induction rewrites generalizing mode with
  | nil => exact runs
  | @keep char text new _ _ inductionHypothesis =>
    obtain ⟨next, stepped, runs⟩ := Option.bind_eq_some_iff.mp runs
    rw [Tokenizer.run_cons, stepped]
    refine inductionHypothesis (fun before after isText isEscape => ?_) runs
    refine unescaped (char :: before) after (congrArg _ isText) ?_
    rw [Tokenizer.run_cons, stepped]
    exact isEscape
  | @replace taken start text new _ found _ _ inductionHypothesis =>
    rw [Tokenizer.run_append, Option.bind_eq_some_iff] at runs
    obtain ⟨next, took, runs⟩ := runs
    have notEscape : mode ≠ .escape := by
      rintro rfl
      have none := unescaped [] (taken ++ text) rfl rfl
      rw [List.append_assoc, found] at none
      cases none
    rw [Tokenizer.run_append, run_bearer notEscape found took]
    refine inductionHypothesis (fun before after isText isEscape => ?_) runs
    refine unescaped (taken ++ before) after (by rw [isText, List.append_assoc]) ?_
    rw [Tokenizer.run_append, took]
    exact isEscape

/-- A lexeme with a backslash before a character of it is a string. -/
theorem inString_of_escape {before after : List Char} (runs : lexer.run .start (before ++ after) = some last)
    (isEscape : lexer.run .start before = some .escape) : last.inString = true := by
  rw [Tokenizer.run_append, isEscape] at runs
  exact inString_run rfl runs

end Modes

/-! ## Matches that stay in a lexeme -/

/-- Every match that is found in the text before `rest` ends in it, as far as it is allowed. -/
def EndsInside (find : List Char → Option (List Char × List Char)) (allowed : List Char → List Char → Prop)
    (rest text : List Char) : Prop :=
  ∃ new, Rewrites find allowed rest text new

/-- The bearer tokens in a lexeme.  In a string none follows the backslash of an escape. -/
def BearersInside (word : Word) (rest : List Char) : Prop :=
  match word.kind with
  | .comment => EndsInside findBearer (fun _ _ => True) rest word.text
  | .blockString => True
  | .string => ∀ before after, word.text = before ++ after → lexer.run .start before = some .escape →
      findBearer after = none
  | .ignored | .punctuator | .name | .int | .float => NoMatch findBearer rest word.text

/-- The same token, or strings of the same kind. -/
def SameShape (token other : Word) : Prop :=
  token = other ∨ (token.kind = other.kind ∧ token.kind.isString = true)

/-- A token with its bearer tokens replaced; they are in strings only. -/
def withoutBearers (token : Word) : Word :=
  if token.kind.isString then ⟨token.kind, replaceAll findBearer token.text⟩ else token

theorem sameShape_withoutBearers (token : Word) : SameShape token (withoutBearers token) := by
  unfold withoutBearers
  split
  · rename_i isString
    exact .inr ⟨rfl, isString⟩
  · exact .inl rfl

/-- The tokens of a document. -/
def tokensOf (words : List Word) : List Word := words.filter Word.isToken

section Lexemes

variable {word : Word} {words : List Word} {rest : List Char}

/-- There are escapes in strings only, and not at their ends. -/
theorem kind_of_escape {text before after : List Char} {state : Mode} {kind : LexemeKind}
    (runs : lexer.run .start text = some state) (isKind : lexemeKind state = some kind)
    (isText : text = before ++ after) (isEscape : lexer.run .start before = some .escape) :
    kind = .string ∧ after ≠ [] := by
  rw [isText] at runs
  have inString := inString_of_escape runs isEscape
  constructor
  · cases state <;> simp_all [Mode.inString, lexemeKind]
  · intro isNil
    rw [isNil, List.append_nil, isEscape] at runs
    cases runs
    cases isKind

/-- Every rest of a string ends with its quotation mark, so that nothing after the string matters. -/
theorem rewrites_of_string {text : List Char} {state : Mode} {kind : LexemeKind}
    (runs : lexer.run .start text = some state) (isKind : lexemeKind state = some kind)
    (isString : kind.isString = true) (rest : List Char) :
    Rewrites findBearer (fun _ _ => True) rest text (replaceAll findBearer text) ∧
      (replaceAll findBearer text).head? = text.head? ∧ ∀ after, after <:+ text → after ≠ [] → '"' ∈ after := by
  obtain ⟨inner, isText, -⟩ := string_text runs isKind isString
  rw [← List.cons_append] at isText
  have whole : Replaced findBearer text (replaceAll findBearer text) :=
    rewrites_replaceAll consumes_findBearer text
  rw [isText] at whole ⊢
  have rewrites := rewrites_of_quote whole rest
  obtain ⟨later, isNew, -⟩ := rewrites.exists_cons (findBearer_of_not_b (by decide))
  refine ⟨rewrites, ?_, fun after => quote_mem_of_suffix⟩
  rw [isNew]
  rfl

/-- A lexeme with its bearer tokens replaced is one of the same kind. -/
theorem exists_bearerLexeme (accepts : lexer.Accepts word rest) (inside : BearersInside word rest) :
    ∃ other : Word, Rewrites findBearer (fun _ _ => True) rest word.text other.text ∧ other.kind = word.kind ∧
      other.text.head? = word.text.head? ∧ (word.isToken = true → other = withoutBearers word) ∧
      ∀ more : List Char, more.head? = rest.head? → lexer.Accepts other more := by
  obtain ⟨state, runs, isKind, follows⟩ := accepts
  obtain ⟨kind, text⟩ := word
  change lexer.run .start text = some state at runs
  change lexemeKind state = some kind at isKind
  have rewritten : ∀ new, Rewrites findBearer (fun _ _ => True) rest text new → new.head? = text.head? →
      (Word.isToken ⟨kind, text⟩ = true → ⟨kind, new⟩ = withoutBearers ⟨kind, text⟩) →
      lexer.run .start new = some state →
      ∃ other : Word, Rewrites findBearer (fun _ _ => True) rest text other.text ∧ other.kind = kind ∧
        other.text.head? = text.head? ∧
        (Word.isToken ⟨kind, text⟩ = true → other = withoutBearers ⟨kind, text⟩) ∧
        ∀ more : List Char, more.head? = rest.head? → lexer.Accepts other more := by
    intro new rewrites sameHead isOther runs
    refine ⟨⟨kind, new⟩, rewrites, rfl, sameHead, isOther, fun more isHead => ⟨state, runs, isKind, ?_⟩⟩
    intro char isNext
    rw [isHead] at isNext
    exact follows char isNext
  have noEscape : kind ≠ .string → ∀ before after, text = before ++ after →
      lexer.run .start before = some .escape → findBearer (after ++ rest) = none := by
    intro notString before after isText isEscape
    exact absurd (kind_of_escape runs isKind isText isEscape).1 notString
  cases kind with
  | ignored | punctuator | name | int | float =>
    have noMatch : NoMatch findBearer rest text := inside
    exact rewritten text noMatch.rewrites rfl (fun _ => rfl) runs
  | comment =>
    obtain ⟨new, rewrites⟩ : EndsInside findBearer (fun _ _ => True) rest text := inside
    refine rewritten new rewrites ?_ nofun (run_rewritten rewrites (noEscape nofun) runs)
    obtain ⟨body, rfl, -⟩ := comment_text runs isKind
    obtain ⟨later, rfl, -⟩ := rewrites.exists_cons (findBearer_of_not_b (by decide))
    rfl
  | blockString =>
    obtain ⟨rewrites, sameHead, -⟩ := rewrites_of_string runs isKind rfl rest
    exact rewritten _ rewrites sameHead (fun _ => rfl) (run_rewritten rewrites (noEscape nofun) runs)
  | string =>
    have unescaped : ∀ before after, text = before ++ after → lexer.run .start before = some .escape →
        findBearer after = none := inside
    obtain ⟨rewrites, sameHead, quotes⟩ := rewrites_of_string runs isKind rfl rest
    refine rewritten _ rewrites sameHead (fun _ => rfl) (run_rewritten rewrites ?_ runs)
    intro before after isText isEscape
    have none := unescaped before after isText isEscape
    rw [findBearer_eq_none_iff] at none ⊢
    intro bearer
    -- a string does not end after a backslash
    have quote := quotes after ⟨before, isText.symm⟩ (kind_of_escape runs isKind isText isEscape).2
    exact none (bearer.of_append ⟨'"', quote, by decide⟩)

/-- The tokens of every lexeme stay in it. -/
def AllBearersInside : List Word → Prop
  | [] => True
  | word :: words => BearersInside word (textOf words) ∧ AllBearersInside words

theorem tokensOf_cons (word : Word) (words : List Word) :
    tokensOf (word :: words) = if word.isToken then word :: tokensOf words else tokensOf words :=
  List.filter_cons

theorem head_textOf_cons {more : List Word} {other : Word} (notNil : word.text ≠ [])
    (sameHead : other.text.head? = word.text.head?) :
    (textOf (other :: more)).head? = (textOf (word :: words)).head? := by
  obtain ⟨first, later, isText⟩ := List.exists_cons_of_ne_nil notNil
  rw [textOf_cons, textOf_cons, List.head?_append, List.head?_append, sameHead, isText]
  rfl

/-- The second expression rewrites the lexemes one by one. -/
theorem exists_bearerLexemes (fit : lexer.Fit words) (inside : AllBearersInside words) :
    ∃ others, replaceAll findBearer (textOf words) = textOf others ∧ lexer.Fit others ∧
      (textOf others).head? = (textOf words).head? ∧ tokensOf others = (tokensOf words).map withoutBearers := by
  induction words with
  | nil => exact ⟨[], rfl, trivial, rfl, rfl⟩
  | cons word words inductionHypothesis =>
    obtain ⟨accepts, fit⟩ := fit
    obtain ⟨wordInside, inside⟩ := inside
    obtain ⟨others, isText, fitOthers, sameHead, tokens⟩ := inductionHypothesis fit inside
    obtain ⟨other, rewrites, sameKind, otherHead, isOther, acceptsOther⟩ :=
      exists_bearerLexeme accepts wordInside
    have isToken : other.isToken = word.isToken := by
      unfold Word.isToken
      rw [sameKind]
    refine ⟨other :: others, ?_, ⟨acceptsOther _ sameHead, fitOthers⟩,
      head_textOf_cons accepts.text_ne_nil otherHead, ?_⟩
    · rw [textOf_cons, rewrites.replaceAll, isText, textOf_cons]
    · rw [tokensOf_cons, tokensOf_cons, isToken]
      cases whether : word.isToken with
      | true => simp [isOther whether, tokens]
      | false => simpa using tokens

end Lexemes

end SpectraGQL.Interceptors
