import SpectraGQL.Protocol.Syntax

/-! # What lexemes look like

Each kind of lexeme is read in modes of its own, which a lexeme that has started never leaves
(`family_run`).  So the last mode tells how the lexeme began, and its characters one by one.
-/

namespace SpectraGQL.Protocol

open Data

/-- What is read in a mode, as far as the first character tells it. -/
inductive LexemeFamily where
  | start | comment | name | quoted | other
deriving DecidableEq

def Mode.family : Mode → LexemeFamily
  | .start => .start
  | .comment => .comment
  | .name => .name
  | .quote | .emptyString | .characters | .escape | .unicode _ | .stringEnd | .block _ _ | .blockEnd => .quoted
  | .ignored | .punctuator | .oneDot | .twoDots | .minus | .zero | .digits | .point | .fraction | .exponent
  | .exponentSign | .exponentDigits => .other

section Families

variable {mode next final : Mode} {char : Char} {text : List Char}

theorem family_characterStep {close : Mode} (closes : close.family = .quoted)
    (stepped : characterStep close char = some next) : next.family = .quoted := by
  unfold characterStep at stepped
  split at stepped
  · cases stepped
    exact closes
  · split at stepped
    · cases stepped
      rfl
    · split at stepped <;> cases stepped
      rfl

theorem family_blockStep {escaped : Bool} {quotes : Nat}
    (stepped : blockStep escaped quotes char = some next) : next.family = .quoted := by
  unfold blockStep at stepped
  split at stepped
  · split at stepped
    · cases stepped
      split <;> rfl
    · cases stepped
      rfl
  · split at stepped
    · cases stepped
      rfl
    · split at stepped <;> cases stepped
      rfl

/-- A lexeme that has started stays in the modes of its kind. -/
theorem family_step (notStart : mode ≠ .start) (stepped : lexStep mode char = some next) :
    next.family = mode.family := by
  cases mode with
  | start => exact absurd rfl notStart
  | ignored | punctuator | stringEnd | blockEnd => cases stepped
  | quote => exact family_characterStep rfl stepped
  | characters => exact family_characterStep rfl stepped
  | block escaped quotes => exact family_blockStep stepped
  | unicode digits =>
    obtain ⟨-, ⟨⟩⟩ := Option.ite_none_right_eq_some.mp stepped
    split <;> rfl
  | comment | name | emptyString | oneDot | twoDots | point | exponentSign | exponentDigits =>
    obtain ⟨-, ⟨⟩⟩ := Option.ite_none_right_eq_some.mp stepped
    rfl
  | escape | minus | zero | digits | fraction | exponent =>
    simp only [lexStep] at stepped
    repeat' split at stepped
    all_goals cases stepped
    all_goals rfl

theorem ne_start_of_step (stepped : lexStep mode char = some next) : next ≠ .start := by
  intro isStart
  subst isStart
  by_cases fromStart : mode = .start
  · subst fromStart
    simp only [lexStep, startStep] at stepped
    repeat' split at stepped
    all_goals cases stepped
  · have same := family_step fromStart stepped
    cases mode with
    | start => exact fromStart rfl
    | _ => cases same

theorem family_run (notStart : mode ≠ .start) (runs : lexer.run mode text = some final) :
    final.family = mode.family := by
  induction text generalizing mode with
  | nil =>
    cases runs
    rfl
  | cons char text inductionHypothesis =>
    obtain ⟨next, stepped, runs⟩ := Option.bind_eq_some_iff.mp runs
    exact (inductionHypothesis (ne_start_of_step stepped) runs).trans (family_step notStart stepped)

/-- The first character of a lexeme tells its family. -/
theorem exists_startStep (runs : lexer.run .start text = some final) (notStart : final ≠ .start) :
    ∃ char rest first, text = char :: rest ∧ startStep char = some first ∧ lexer.run first rest = some final ∧
      final.family = first.family := by
  cases text with
  | nil =>
    cases runs
    exact absurd rfl notStart
  | cons char rest =>
    obtain ⟨first, stepped, runs⟩ := Option.bind_eq_some_iff.mp runs
    have fromStart : lexStep .start char = some first := stepped
    exact ⟨char, rest, first, rfl, fromStart, runs, family_run (ne_start_of_step fromStart) runs⟩

/-- A quotation mark begins strings, a number sign comments, a letter or an underscore names. -/
theorem startStep_cases (stepped : startStep char = some next) :
    (char = '"' ∧ next = .quote) ∨ (char = '#' ∧ next = .comment) ∨
      (isNameStart char = true ∧ next = .name) ∨ next.family = .other := by
  by_cases quote : char = '"'
  · subst quote
    cases stepped
    exact .inl ⟨rfl, rfl⟩
  by_cases sign : char = '#'
  · subst sign
    cases stepped
    exact .inr (.inl ⟨rfl, rfl⟩)
  by_cases letter : isNameStart char = true
  · simp only [startStep, beq_iff_eq, quote, sign, letter, if_false, if_true] at stepped
    repeat' split at stepped
    all_goals cases stepped
    all_goals simp [Mode.family, letter]
  · simp only [startStep, beq_iff_eq, quote, sign, letter, if_false, Bool.false_eq_true] at stepped
    repeat' split at stepped
    all_goals cases stepped
    all_goals simp [Mode.family]

/-! ## Names, comments and block strings -/

theorem run_name (runs : lexer.run .name text = some final) :
    final = .name ∧ ∀ char ∈ text, isNameContinue char = true := by
  induction text with
  | nil =>
    cases runs
    exact ⟨rfl, by simp⟩
  | cons char text inductionHypothesis =>
    obtain ⟨next, stepped, runs⟩ := Option.bind_eq_some_iff.mp runs
    obtain ⟨continues, ⟨⟩⟩ := Option.ite_none_right_eq_some.mp stepped
    obtain ⟨isFinal, others⟩ := inductionHypothesis runs
    exact ⟨isFinal, List.forall_mem_cons.mpr ⟨continues, others⟩⟩

theorem run_comment_iff : lexer.run .comment text = some final ↔
    final = .comment ∧ ∀ char ∈ text, isCommentCharacter char = true := by
  induction text with
  | nil =>
    rw [Tokenizer.run_nil, Option.some.injEq, eq_comm]
    exact (and_iff_left (List.forall_mem_nil _)).symm
  | cons char text inductionHypothesis =>
    have stepped : lexer.step .comment char = if isCommentCharacter char then some .comment else none := rfl
    rw [Tokenizer.run_cons, stepped, List.forall_mem_cons]
    cases isComment : isCommentCharacter char with
    | true => rw [if_pos rfl, Option.bind_some, inductionHypothesis, eq_self, true_and]
    | false => simp only [Bool.false_eq_true, if_false, Option.bind_none, reduceCtorEq, false_and, and_false]

/-- What closes a string or a block string is a quotation mark. -/
theorem quote_of_closes (stepped : lexStep mode char = some next)
    (closes : next = .emptyString ∨ next = .stringEnd ∨ next = .blockEnd) : char = '"' := by
  have characters : ∀ close, characterStep close char = some next → char = '"' := by
    intro close stepped
    by_contra notQuote
    simp only [characterStep, beq_iff_eq, notQuote, if_false] at stepped
    repeat' split at stepped
    all_goals cases stepped
    all_goals simp at closes
  cases mode with
  | quote => exact characters _ stepped
  | characters => exact characters _ stepped
  | block escaped quotes =>
    by_contra notQuote
    simp only [lexStep, blockStep, beq_iff_eq, notQuote, if_false] at stepped
    repeat' split at stepped
    all_goals cases stepped
    all_goals simp at closes
  | unicode digits =>
    obtain ⟨-, ⟨⟩⟩ := Option.ite_none_right_eq_some.mp stepped
    split at closes <;> simp at closes
  | _ =>
    simp only [lexStep, startStep] at stepped
    repeat' split at stepped
    all_goals cases stepped
    all_goals simp at closes

/-- The modes after the first character of a string that is no block string. -/
def Mode.inString : Mode → Bool
  | .characters | .escape | .unicode _ | .stringEnd => true
  | .start | .ignored | .comment | .punctuator | .oneDot | .twoDots | .name | .minus | .zero | .digits | .point
  | .fraction | .exponent | .exponentSign | .exponentDigits | .quote | .emptyString | .block _ _ | .blockEnd => false

theorem inString_step (inString : mode.inString = true) (stepped : lexStep mode char = some next) :
    next.inString = true := by
  cases mode with
  | stringEnd => cases stepped
  | characters | escape =>
    simp only [lexStep, characterStep] at stepped
    repeat' split at stepped
    all_goals cases stepped
    all_goals rfl
  | unicode digits =>
    obtain ⟨-, ⟨⟩⟩ := Option.ite_none_right_eq_some.mp stepped
    split <;> rfl
  | _ => cases inString

theorem inString_run (inString : mode.inString = true) (runs : lexer.run mode text = some final) :
    final.inString = true := by
  induction text generalizing mode with
  | nil =>
    cases runs
    exact inString
  | cons char text inductionHypothesis =>
    obtain ⟨next, stepped, runs⟩ := Option.bind_eq_some_iff.mp runs
    exact inductionHypothesis (inString_step inString stepped) runs

/-! ## The characters of a lexeme -/

theorem name_text (runs : lexer.run .start text = some final) (isKind : lexemeKind final = some .name) :
    ∀ char ∈ text, isNameContinue char = true := by
  obtain rfl : final = .name := by cases final <;> first | rfl | cases isKind
  obtain ⟨char, rest, first, rfl, stepped, runs, family⟩ := exists_startStep runs nofun
  obtain ⟨-, rfl⟩ | ⟨-, rfl⟩ | ⟨starts, rfl⟩ | other := startStep_cases stepped
  · cases family
  · cases family
  · exact List.forall_mem_cons.mpr ⟨by simp [isNameContinue, starts], (run_name runs).2⟩
  · cases family.trans other

theorem comment_text (runs : lexer.run .start text = some final) (isKind : lexemeKind final = some .comment) :
    ∃ rest, text = '#' :: rest ∧ ∀ char ∈ rest, isCommentCharacter char = true := by
  obtain rfl : final = .comment := by cases final <;> first | rfl | cases isKind
  obtain ⟨char, rest, first, rfl, stepped, runs, family⟩ := exists_startStep runs nofun
  obtain ⟨-, rfl⟩ | ⟨rfl, rfl⟩ | ⟨-, rfl⟩ | other := startStep_cases stepped
  · cases family
  · exact ⟨rest, rfl, (run_comment_iff.mp runs).2⟩
  · cases family
  · cases family.trans other

/-- A string stands between quotation marks. -/
theorem string_text {kind : LexemeKind} (runs : lexer.run .start text = some final)
    (isKind : lexemeKind final = some kind) (isString : kind.isString = true) :
    ∃ inner, text = '"' :: (inner ++ ['"']) ∧ lexer.run .quote (inner ++ ['"']) = some final := by
  -- a string ends in one of three states, each of which only a quotation mark leads to
  have closes : final = .emptyString ∨ final = .stringEnd ∨ final = .blockEnd := by
    cases final with
    | emptyString | stringEnd | blockEnd => simp
    | ignored | comment | punctuator | name | zero | digits | fraction | exponentDigits =>
      cases isKind
      cases isString
    | _ => cases isKind
  have quoted : final.family = .quoted := by
    rcases closes with rfl | rfl | rfl <;> rfl
  obtain ⟨char, rest, first, rfl, stepped, runs, family⟩ := exists_startStep runs (by rintro rfl; cases quoted)
  rw [quoted] at family
  obtain ⟨rfl, rfl⟩ | ⟨-, rfl⟩ | ⟨-, rfl⟩ | other := startStep_cases stepped
  · cases List.eq_nil_or_concat rest with
    | inl isNil =>
      subst isNil
      cases runs
      simp at closes
    | inr isConcat =>
      obtain ⟨inner, last, rfl⟩ := isConcat
      rw [List.concat_eq_append] at runs ⊢
      have parts := runs
      rw [Tokenizer.run_append, Option.bind_eq_some_iff] at parts
      obtain ⟨before, -, lastStep⟩ := parts
      obtain ⟨after, stepped, isAfter⟩ := Option.bind_eq_some_iff.mp lastStep
      cases isAfter
      obtain rfl := quote_of_closes stepped closes
      exact ⟨inner, rfl, runs⟩
  · cases family
  · cases family
  · cases family.trans other

/-- Three quotation marks open a block string: after any other character there is none. -/
theorem blockString_text (runs : lexer.run .start text = some final)
    (isKind : lexemeKind final = some .blockString) :
    ∃ inner, text = '"' :: '"' :: '"' :: inner ∧ lexer.run (.block false 0) inner = some .blockEnd := by
  obtain rfl : final = .blockEnd := by cases final <;> first | rfl | cases isKind
  obtain ⟨inner, rfl, afterQuote⟩ := string_text runs isKind rfl
  clear runs
  generalize inner ++ ['"'] = rest at afterQuote
  cases rest with
  | nil => cases afterQuote
  | cons char rest =>
    obtain ⟨next, stepped, runs⟩ := Option.bind_eq_some_iff.mp afterQuote
    have fromQuote : characterStep .emptyString char = some next := stepped
    unfold characterStep at fromQuote
    split at fromQuote
    · rename_i isQuote
      cases fromQuote
      obtain rfl := beq_iff_eq.mp isQuote
      cases rest with
      | nil => cases runs
      | cons char rest =>
        obtain ⟨next, stepped, runs⟩ := Option.bind_eq_some_iff.mp runs
        obtain ⟨isQuote, ⟨⟩⟩ := Option.ite_none_right_eq_some.mp stepped
        obtain rfl := beq_iff_eq.mp isQuote
        exact ⟨rest, rfl, runs⟩
    -- an ordinary string never becomes a block string
    · have inString : next.inString = true := by
        repeat' split at fromQuote
        all_goals cases fromQuote
        all_goals rfl
      cases inString_run inString runs

end Families

end SpectraGQL.Protocol
