import SpectraGQL.Interceptors.BearerLexemes

/-! # Literals in documents (`interceptors/sanitizer.rs`, `sanitize_gql_query_str`)

What the first expression leaves: the first character of a text and everything up to its first colon,
what stands after the last quotation mark of a comment (`after_quote_of_literals`), and the end of a
block string (`run_literals`).
-/

namespace SpectraGQL.Interceptors

open Data SpectraGQL.Http SpectraGQL.Protocol

/-! ## What replaced literals leave in place -/

section Literals

variable {text new part rest : List Char}

/-- Up to the first colon a text was as it is. -/
theorem prefix_of_replaced (replaced : Replaced findLiteral text new) {taken rest : List Char}
    (noColon : ':' ∉ taken) (isNew : new = taken ++ rest) : ∃ before, text = taken ++ before := by
  induction replaced generalizing taken with
  | nil =>
    obtain ⟨rfl, -⟩ := List.append_eq_nil_iff.mp isNew.symm
    exact ⟨[], rfl⟩
  | @keep char text new _ _ inductionHypothesis =>
    cases taken with
    | nil => exact ⟨char :: text, rfl⟩
    | cons first taken =>
      obtain ⟨rfl, isRest⟩ := List.cons.inj isNew
      obtain ⟨before, rfl⟩ := inductionHypothesis (fun member => noColon (List.mem_cons_of_mem _ member)) isRest
      exact ⟨before, rfl⟩
  | @replace found start text new _ isFound _ _ _ =>
    obtain ⟨key, blanks, spaces, body, -, -, -, -, rfl, rfl⟩ := findLiteral_eq_some isFound
    rw [List.append_assoc] at isNew
    cases List.append_eq_append_iff.mp isNew with
    | inl longer =>
      obtain ⟨more, rfl, isMore⟩ := longer
      cases more with
      | nil => exact ⟨blanks ++ ':' :: (spaces ++ '"' :: (body ++ '"' :: text)), by simp⟩
      | cons colon more =>
        obtain ⟨rfl, -⟩ := List.cons.inj isMore
        exact absurd (List.mem_append_right key List.mem_cons_self) noColon
    | inr shorter =>
      obtain ⟨more, rfl, -⟩ := shorter
      exact ⟨more ++ (blanks ++ ':' :: (spaces ++ '"' :: (body ++ '"' :: text))), by simp⟩

/-- No bearer token comes to be. -/
theorem BearerAt.of_replaced (replaced : Replaced findLiteral text new) (bearer : BearerAt new) : BearerAt text := by
  obtain ⟨taken, rest, isNew, all, isBearer⟩ := bearer.exists_prefix
  have noColon : ':' ∉ taken := fun member => absurd (all ':' member) (by decide)
  obtain ⟨before, rfl⟩ := prefix_of_replaced replaced noColon isNew
  exact isBearer before

theorem head_replaceLiterals (text : List Char) : (replaceAll findLiteral text).head? = text.head? := by
  have replaced : Replaced findLiteral text (replaceAll findLiteral text) :=
    rewrites_replaceAll consumes_findLiteral text
  generalize replaceAll findLiteral text = new at replaced
  cases replaced with
  | nil => rfl
  | keep _ _ => rfl
  | replace _ found _ _ =>
    rw [List.append_nil] at found
    obtain ⟨key, blanks, spaces, body, isKey, -, -, -, rfl, rfl⟩ := findLiteral_eq_some found
    obtain ⟨first, others, rfl⟩ := List.exists_cons_of_ne_nil (isKeyChar_of_literalKey isKey).1
    rfl

/-- In a text without literals, no bearer token starts that did not before. -/
theorem bearers_of_noMatch (noMatch : NoMatch findLiteral rest text) (suffix : part <:+ text)
    (bearer : BearerAt (part ++ replaceAll findLiteral rest)) : BearerAt (part ++ rest) := by
  have replaced : Replaced findLiteral (part ++ rest) (replaceAll findLiteral (part ++ rest)) :=
    rewrites_replaceAll consumes_findLiteral (part ++ rest)
  rw [(noMatch.of_suffix suffix).replaceAll] at replaced
  exact bearer.of_replaced replaced

/-- Before the next quotation mark there is no literal. -/
theorem noMatch_of_no_quote {allowed : List Char → List Char → Prop}
    (rewrites : Rewrites findLiteral allowed rest text new) (noQuote : '"' ∉ text) :
    new = text ∧ NoMatch findLiteral rest text := by
  induction rewrites with
  | nil =>
    refine ⟨rfl, fun before after isText notNil => ?_⟩
    exact absurd (List.append_eq_nil_iff.mp isText.symm).2 notNil
  | @keep char text new none _ inductionHypothesis =>
    obtain ⟨rfl, noMatch⟩ := inductionHypothesis fun member => noQuote (List.mem_cons_of_mem _ member)
    refine ⟨rfl, fun before after isText notNil => ?_⟩
    cases before with
    | nil =>
      obtain rfl : char :: new = after := isText
      exact none
    | cons first before => exact noMatch before after (List.cons.inj isText).2 notNil
  | replace _ found _ _ _ =>
    obtain ⟨key, blanks, spaces, body, -, -, -, -, rfl, -⟩ := findLiteral_eq_some found
    exact absurd (by simp) noQuote

/-- What comes after the last quotation mark stays. -/
theorem after_quote_of_literals {allowed : List Char → List Char → Prop}
    (rewrites : Rewrites findLiteral allowed rest text new) {before after : List Char}
    (isText : text = before ++ '"' :: after) (noQuote : '"' ∉ after) :
    NoMatch findLiteral rest after ∧ ∃ start, new = start ++ '"' :: after := by
  induction rewrites generalizing before with
  | nil => simp at isText
  | @keep char text new _ later inductionHypothesis =>
    cases before with
    | nil =>
      obtain ⟨rfl, rfl⟩ := List.cons.inj isText
      obtain ⟨rfl, noMatch⟩ := noMatch_of_no_quote later noQuote
      exact ⟨noMatch, [], rfl⟩
    | cons first before =>
      obtain ⟨rfl, isRest⟩ := List.cons.inj isText
      obtain ⟨noMatch, start, rfl⟩ := inductionHypothesis isRest
      exact ⟨noMatch, char :: start, rfl⟩
  | @replace taken start text new _ found _ later inductionHypothesis =>
    obtain ⟨key, blanks, spaces, body, -, -, -, -, isTaken, rfl⟩ := findLiteral_eq_some found
    cases List.append_eq_append_iff.mp isText with
    | inl further =>
      obtain ⟨more, -, isMore⟩ := further
      obtain ⟨noMatch, start, rfl⟩ := inductionHypothesis isMore
      exact ⟨noMatch, key ++ redactedLiteral ++ start, by simp⟩
    | inr inside =>
      obtain ⟨more, isWhole, isMore⟩ := inside
      cases more with
      | nil =>
        obtain ⟨noMatch, start, rfl⟩ := @inductionHypothesis [] isMore.symm
        exact ⟨noMatch, key ++ redactedLiteral ++ start, by simp⟩
      | cons quote more =>
        -- the match ends with the last quotation mark
        obtain ⟨rfl, rfl⟩ := List.cons.inj isMore
        cases List.eq_nil_or_concat more with
        | inl isNil =>
          subst isNil
          obtain ⟨rfl, noMatch⟩ := noMatch_of_no_quote later noQuote
          exact ⟨noMatch, key ++ ':' :: ' ' :: '"' :: redactedPlaceholder.toList, by simp [redactedLiteral]⟩
        | inr isConcat =>
          obtain ⟨more, last, rfl⟩ := isConcat
          have ending : (before ++ '"' :: more) ++ [last] =
              (key ++ (blanks ++ ':' :: (spaces ++ '"' :: body))) ++ ['"'] := by
            simpa [isTaken] using isWhole.symm
          obtain ⟨-, isLast⟩ := List.append_inj' ending rfl
          obtain rfl : last = '"' := by simpa using isLast
          exact absurd (by simp) noQuote

/-- No bearer token reaches from one side of a quotation mark to the other. -/
theorem after_quote_of_bearers {allowed : List Char → List Char → Prop}
    (rewrites : Rewrites findBearer allowed rest text new) {before after : List Char}
    (isText : text = before ++ '"' :: after) : ∃ newAfter, Rewrites findBearer allowed rest after newAfter := by
  induction rewrites generalizing before with
  | nil => simp at isText
  | keep _ later inductionHypothesis =>
    cases before with
    | nil =>
      obtain ⟨-, rfl⟩ := List.cons.inj isText
      exact ⟨_, later⟩
    | cons first before => exact inductionHypothesis (List.cons.inj isText).2
  | replace _ found _ _ inductionHypothesis =>
    have inTaken := isBearerChar_of_found found
    cases List.append_eq_append_iff.mp isText with
    | inl further =>
      obtain ⟨more, -, isMore⟩ := further
      exact inductionHypothesis isMore
    | inr inside =>
      obtain ⟨more, isWhole, isMore⟩ := inside
      cases more with
      | nil => exact @inductionHypothesis [] isMore.symm
      | cons quote more =>
        obtain ⟨rfl, -⟩ := List.cons.inj isMore
        exact absurd (inTaken '"' (by simp [isWhole])) (by decide)

theorem exists_last_quote (quote : '"' ∈ text) : ∃ before after, text = before ++ '"' :: after ∧ '"' ∉ after := by
  obtain ⟨after, before, isText, noQuote⟩ := List.eq_append_cons_of_mem (List.mem_reverse.mpr quote)
  refine ⟨before.reverse, after.reverse, ?_, by simpa using noQuote⟩
  rw [← List.reverse_reverse text, isText]
  simp

/-- The bearer tokens of a comment stay in it when its literals have been replaced. -/
theorem bearersInside_of_literals {allowed : List Char → List Char → Prop}
    (literals : Rewrites findLiteral allowed rest text new)
    (bearers : EndsInside findBearer (fun _ _ => True) rest text) :
    EndsInside findBearer (fun _ _ => True) (replaceAll findLiteral rest) new := by
  have sameHead := head_replaceLiterals rest
  obtain ⟨newText, rewrites⟩ := bearers
  by_cases quote : '"' ∈ text
  · obtain ⟨before, after, rfl, noQuote⟩ := exists_last_quote quote
    obtain ⟨noMatch, start, rfl⟩ := after_quote_of_literals literals rfl noQuote
    obtain ⟨newAfter, ofAfter⟩ := after_quote_of_bearers rewrites rfl
    have ofStart : Replaced findBearer (start ++ ['"']) (replaceAll findBearer (start ++ ['"'])) :=
      rewrites_replaceAll consumes_findBearer (start ++ ['"'])
    have parts := (rewrites_of_quote ofStart (after ++ replaceAll findLiteral rest)).append
      (rewrites_of_head ofAfter sameHead fun part suffix => bearers_of_noMatch noMatch suffix)
    rw [List.append_assoc, List.singleton_append] at parts
    exact ⟨_, parts⟩
  · obtain ⟨rfl, noMatch⟩ := noMatch_of_no_quote literals quote
    exact ⟨_, rewrites_of_head rewrites sameHead fun part suffix => bearers_of_noMatch noMatch suffix⟩

end Literals

/-! ## Literals in a lexeme -/

/-- What is put in for a literal ends with one quotation mark and no backslash, so no other may
    have been counted with it. -/
def KeepsQuotes (taken left : List Char) : Prop :=
  ¬ (['"', '"'] <:+ taken ∧ ['"'] <+: left) ∧ ¬ (['\\', '"'] <:+ taken ∧ ['"', '"'] <+: left)

/-- The names with literals in a lexeme. -/
def LiteralsInside (word : Word) (rest : List Char) : Prop :=
  match word.kind with
  | .comment => EndsInside findLiteral (fun _ _ => True) rest word.text
  | .blockString => EndsInside findLiteral KeepsQuotes rest word.text
  | .ignored | .punctuator | .name | .int | .float | .string => NoMatch findLiteral rest word.text

section Blocks

variable {escaped : Bool} {quotes : Nat} {last : Mode} {text new taken left start rest : List Char}

theorem blockStep_of_ne_quote {char : Char} (notQuote : char ≠ '"') (escaped : Bool) (quotes : Nat) :
    blockStep escaped quotes char = if char = '\\' then some (.block true 0)
      else if isSourceCharacter char then some (.block false 0) else none := by
  simp [blockStep, notQuote]

/-- Without a quotation mark only a backslash at the end is remembered. -/
theorem run_body {body : List Char} (noQuote : '"' ∉ body) (notNil : body ≠ [])
    (runs : lexer.run (.block escaped quotes) body = some last) :
    last = .block (decide (['\\'] <:+ body)) 0 := by
  induction body generalizing escaped quotes with
  | nil => exact absurd rfl notNil
  | cons char body inductionHypothesis =>
    obtain ⟨isChar, notQuote⟩ := not_or.mp (fun both => noQuote (List.mem_cons.mpr both))
    obtain ⟨next, stepped, runs⟩ := Option.bind_eq_some_iff.mp runs
    have step : blockStep escaped quotes char = some next := stepped
    rw [blockStep_of_ne_quote (Ne.symm isChar)] at step
    have isNext : next = .block (decide (char = '\\')) 0 := by
      by_cases backslash : char = '\\'
      · rw [if_pos backslash] at step
        cases step
        simp [backslash]
      · rw [if_neg backslash] at step
        obtain ⟨-, ⟨⟩⟩ := Option.ite_none_right_eq_some.mp step
        simp [backslash]
    subst isNext
    cases body with
    | nil =>
      cases runs
      simp [List.suffix_cons_iff, eq_comm]
    | cons more body =>
      have isLast := inductionHypothesis notQuote (List.cons_ne_nil _ _) runs
      rw [isLast]
      simp [List.suffix_cons_iff]

theorem isQuiet_of_isKeyChar {char : Char} (isKey : isKeyChar char = true) : isQuiet char = true := by
  rw [isQuiet, Bool.and_eq_true, bne_iff_ne, bne_iff_ne]
  exact ⟨ne_of_isKeyChar isKey (by decide), ne_of_isKeyChar isKey (by decide)⟩

theorem isQuiet_of_isWhitespace {char : Char} (blank : isWhitespace char = true) : isQuiet char = true :=
  isQuiet_of_isBearerChar (by simp [isBearerChar, blank])

/-- What is counted after a literal in a block string, and after what is put in for it. -/
theorem run_literal (found : findLiteral (taken ++ left) = some (start, left))
    (runs : lexer.run (.block escaped quotes) taken = some last) :
    lexer.run (.block escaped quotes) start = some (.block false 1) ∧
      (last = .block false 1 ∨ (last = .block false 2 ∧ ['"', '"'] <:+ taken) ∨
        (last = .block true 1 ∧ ['\\', '"'] <:+ taken)) := by
  obtain ⟨key, blanks, spaces, body, isKey, areBlank, areSpaces, noQuote, rfl, rfl⟩ := findLiteral_eq_some found
  obtain ⟨notNil, areKeyChars⟩ := isKeyChar_of_literalKey isKey
  have quiet : ∀ char ∈ key, isQuiet char = true :=
    fun char member => isQuiet_of_isKeyChar (areKeyChars char member)
  have quietBefore : ∀ char ∈ key ++ (blanks ++ ':' :: spaces), isQuiet char = true := by
    simp only [List.forall_mem_append, List.forall_mem_cons]
    exact ⟨quiet, fun char member => isQuiet_of_isWhitespace (areBlank char member), by decide,
      fun char member => isQuiet_of_isWhitespace (areSpaces char member)⟩
  constructor
  · rw [Tokenizer.run_append, Option.bind_eq_some_iff] at runs
    obtain ⟨next, ofKey, -⟩ := runs
    obtain rfl := run_block notNil quiet ofKey
    rw [Tokenizer.run_append, ofKey]
    rfl
  -- the key and its colon are quiet, so all depends on how the body ends
  · have parts : key ++ (blanks ++ ':' :: (spaces ++ '"' :: (body ++ ['"']))) =
        (key ++ (blanks ++ ':' :: spaces)) ++ '"' :: (body ++ ['"']) := by
      simp
    rw [parts, Tokenizer.run_append, Option.bind_eq_some_iff] at runs
    obtain ⟨next, ofBefore, runs⟩ := runs
    obtain rfl := run_block (by simp) quietBefore ofBefore
    have afterQuote : lexer.run (.block false 1) (body ++ ['"']) = some last := runs
    by_cases isNil : body = []
    · subst isNil
      cases afterQuote
      exact .inr (.inl ⟨rfl, key ++ (blanks ++ ':' :: spaces), by simp⟩)
    · rw [Tokenizer.run_append, Option.bind_eq_some_iff] at afterQuote
      obtain ⟨next, ofBody, runs⟩ := afterQuote
      obtain rfl := run_body noQuote isNil ofBody
      by_cases backslash : ['\\'] <:+ body
      · rw [decide_eq_true backslash] at runs
        cases runs
        obtain ⟨before, rfl⟩ := backslash
        exact .inr (.inr ⟨rfl, key ++ (blanks ++ ':' :: (spaces ++ '"' :: before)), by simp⟩)
      · rw [decide_eq_false backslash] at runs
        cases runs
        exact .inl rfl

/-- Any other character makes the quotation marks before it not count. -/
theorem run_block_of_ne_quote {char : Char} (notQuote : char ≠ '"') {other : Bool} {more : Nat} :
    lexer.run (.block escaped quotes) (char :: text) = lexer.run (.block other more) (char :: text) := by
  have step : ∀ escaped quotes, lexer.step (.block escaped quotes) char = blockStep escaped quotes char :=
    fun _ _ => rfl
  rw [Tokenizer.run_cons, Tokenizer.run_cons, step, step, blockStep_of_ne_quote notQuote,
    blockStep_of_ne_quote notQuote]

/-- Where the quotation marks are kept, the rest of a block string is read as before. -/
theorem run_resynced (keeps : KeepsQuotes taken (text ++ rest))
    (isLast : last = .block false 1 ∨ (last = .block false 2 ∧ ['"', '"'] <:+ taken) ∨
      (last = .block true 1 ∧ ['\\', '"'] <:+ taken))
    (runs : lexer.run last text = some .blockEnd) : lexer.run (.block false 1) text = some .blockEnd := by
  obtain rfl | ⟨rfl, ending⟩ | ⟨rfl, ending⟩ := isLast
  · exact runs
  · cases text with
    | nil => cases runs
    | cons char text =>
      have notQuote : char ≠ '"' := by
        rintro rfl
        exact keeps.1 ⟨ending, by simp⟩
      rwa [run_block_of_ne_quote notQuote] at runs
  · cases text with
    | nil => cases runs
    | cons char text =>
      -- a second quotation mark here would follow the one that ends the literal
      by_cases isQuote : char = '"'
      · subst isQuote
        have afterQuote : lexer.run (.block true 2) text = some .blockEnd := runs
        have goal : lexer.run (.block false 2) text = some .blockEnd := by
          cases text with
          | nil => cases afterQuote
          | cons char text =>
            have notQuote : char ≠ '"' := by
              rintro rfl
              exact keeps.2 ⟨ending, by simp⟩
            rwa [run_block_of_ne_quote notQuote] at afterQuote
        exact goal
      · rwa [run_block_of_ne_quote isQuote] at runs

theorem blockStep_cases {char : Char} {next : Mode} (stepped : blockStep escaped quotes char = some next) :
    (∃ escaped quotes, next = .block escaped quotes) ∨ next = .blockEnd := by
  unfold blockStep at stepped
  repeat' split at stepped
  all_goals cases stepped
  all_goals simp

/-- A block string with its literals replaced ends where it did. -/
theorem run_literals (rewrites : Rewrites findLiteral KeepsQuotes rest text new)
    (runs : lexer.run (.block escaped quotes) text = some .blockEnd) :
    lexer.run (.block escaped quotes) new = some .blockEnd := by
  induction rewrites generalizing escaped quotes with
  | nil => exact runs
  | @keep char text new _ later inductionHypothesis =>
    obtain ⟨next, stepped, runs⟩ := Option.bind_eq_some_iff.mp runs
    rw [Tokenizer.run_cons, stepped]
    cases blockStep_cases stepped with
    | inl isBlock =>
      obtain ⟨escaped, quotes, rfl⟩ := isBlock
      exact inductionHypothesis runs
    | inr isEnd =>
      -- nothing comes after the end
      subst isEnd
      cases text with
      | nil =>
        rw [later.eq_nil]
        exact runs
      | cons char text => cases runs
  | replace _ found keeps _ inductionHypothesis =>
    rw [Tokenizer.run_append, Option.bind_eq_some_iff] at runs
    obtain ⟨next, took, runs⟩ := runs
    obtain ⟨isStart, isLast⟩ := run_literal found took
    rw [Tokenizer.run_append, isStart]
    exact inductionHypothesis (run_resynced keeps isLast runs)

end Blocks
end SpectraGQL.Interceptors
