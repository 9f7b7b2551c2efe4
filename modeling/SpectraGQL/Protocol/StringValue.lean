import SpectraGQL.Protocol.Syntax
import SpectraGQL.Data.Separated
import Mathlib.Data.List.DropRight
import Mathlib.Algebra.Order.BigOperators.Group.List
import Mathlib.Algebra.Order.Group.Nat

/-! # What the strings of GraphQL denote

The text that a quoted string denotes, with its escapes, and the text of a block string, without
its indentation and without the blank lines around it (October 2021).  Escapes only get shorter,
so that a string denotes its own characters exactly if it has none.
-/

namespace SpectraGQL.Protocol

open Data

/-! ## Quoted strings -/

/-- What the character behind a backslash stands for. -/
def escapedCharacter : Char → Option Char
  | '"' => some '"'
  | '\\' => some '\\'
  | '/' => some '/'
  | 'b' => some (Char.ofNat 8)
  | 'f' => some (Char.ofNat 12)
  | 'n' => some '\n'
  | 'r' => some '\r'
  | 't' => some '\t'
  | _ => none

def hexDigitValue (char : Char) : Nat :=
  if isDigit char then char.toNat - 48
  else if char.toNat ≤ 70 then char.toNat - 55
  else char.toNat - 87

def hexNumber (digits : List Char) : Nat :=
  digits.foldl (fun number digit => 16 * number + hexDigitValue digit) 0

/-- The code units of a character in UTF-16. -/
def utf16 (char : Char) : List Nat :=
  if char.toNat < 0x10000 then [char.toNat]
  else [0xd800 + (char.toNat - 0x10000) / 0x400, 0xdc00 + (char.toNat - 0x10000) % 0x400]

/-- The characters between the quotation marks, and the text that they denote. -/
inductive QuotedText : List Char → List Char → Prop
  | nil : QuotedText [] []
  | character {char : Char} {rest text : List Char} (notQuote : char ≠ '"') (notEscape : char ≠ '\\')
      (inLine : isLineTerminator char = false) (denotes : QuotedText rest text) :
      QuotedText (char :: rest) (char :: text)
  | escaped {name char : Char} {rest text : List Char} (isEscape : escapedCharacter name = some char)
      (denotes : QuotedText rest text) : QuotedText ('\\' :: name :: rest) (char :: text)
  /-- One escape for each code unit. -/
  | unicode {units : List (List Char)} {char : Char} {rest text : List Char}
      (areDigits : ∀ digits ∈ units, digits.length = 4 ∧ ∀ digit ∈ digits, isHexDigit digit = true)
      (isUtf16 : units.map hexNumber = utf16 char) (denotes : QuotedText rest text) :
      QuotedText (units.flatMap (fun digits => '\\' :: 'u' :: digits) ++ rest) (char :: text)

section Quoted

variable {chars text : List Char}

theorem utf16_ne_nil (char : Char) : utf16 char ≠ [] := by
  unfold utf16
  split <;> simp

/-- A character that is written in code units starts with a backslash, and is longer than one. -/
theorem exists_units {units : List (List Char)} {char : Char} (isUtf16 : units.map hexNumber = utf16 char) :
    ∃ digits others, units.flatMap (fun digits => '\\' :: 'u' :: digits) = '\\' :: 'u' :: digits ++ others := by
  cases units with
  | nil => exact absurd isUtf16.symm (utf16_ne_nil char)
  | cons digits units => exact ⟨digits, units.flatMap fun digits => '\\' :: 'u' :: digits, rfl⟩

theorem QuotedText.head_ne_quote (denotes : QuotedText chars text) : chars.head? ≠ some '"' := by
  cases denotes with
  | nil => nofun
  | character notQuote => simpa using notQuote
  | escaped => simp
  | unicode areDigits isUtf16 =>
    obtain ⟨digits, others, isEscape⟩ := exists_units isUtf16
    simp [isEscape]

theorem QuotedText.length_le (denotes : QuotedText chars text) : text.length ≤ chars.length := by
  induction denotes with
  | nil => simp
  | character _ _ _ _ inductionHypothesis => simpa using inductionHypothesis
  | escaped _ _ inductionHypothesis =>
    simp only [List.length_cons]
    omega
  | unicode _ isUtf16 _ inductionHypothesis =>
    obtain ⟨digits, others, isEscape⟩ := exists_units isUtf16
    simp only [isEscape, List.length_append, List.length_cons]
    omega

theorem QuotedText.length_lt (denotes : QuotedText chars text) (escapes : '\\' ∈ chars) :
    text.length < chars.length := by
  induction denotes with
  | nil => simp at escapes
  | character _ notEscape _ _ inductionHypothesis =>
    have later := (List.mem_cons.mp escapes).resolve_left (Ne.symm notEscape)
    simpa using inductionHypothesis later
  | escaped _ denotes _ =>
    have shorter := denotes.length_le
    simp only [List.length_cons]
    omega
  | unicode _ isUtf16 denotes _ =>
    have shorter := denotes.length_le
    obtain ⟨digits, others, isEscape⟩ := exists_units isUtf16
    simp only [isEscape, List.length_append, List.length_cons]
    omega

theorem QuotedText.eq_of_unescaped (denotes : QuotedText chars text) (unescaped : '\\' ∉ chars) :
    text = chars := by
  induction denotes with
  | nil => rfl
  | character _ _ _ _ inductionHypothesis =>
    rw [inductionHypothesis fun later => unescaped (List.mem_cons_of_mem _ later)]
  | escaped => simp at unescaped
  | unicode _ isUtf16 =>
    obtain ⟨digits, others, isEscape⟩ := exists_units isUtf16
    simp [isEscape] at unescaped

theorem QuotedText.quote_not_mem (denotes : QuotedText chars text) (unescaped : '\\' ∉ chars) :
    '"' ∉ chars := by
  induction denotes with
  | nil => simp
  | character notQuote _ _ _ inductionHypothesis =>
    have later := inductionHypothesis fun later => unescaped (List.mem_cons_of_mem _ later)
    simp [Ne.symm notQuote, later]
  | escaped => simp at unescaped
  | unicode _ isUtf16 =>
    obtain ⟨digits, others, isEscape⟩ := exists_units isUtf16
    simp [isEscape] at unescaped

/-- A string denotes its own characters exactly if it has no escape. -/
theorem QuotedText.eq_iff (denotes : QuotedText chars text) : text = chars ↔ '\\' ∉ chars := by
  constructor
  · intro same escapes
    have shorter := denotes.length_lt escapes
    rw [same] at shorter
    exact absurd shorter (lt_irrefl _)
  · exact denotes.eq_of_unescaped

/-- The last character of two parts that are read one after the other. -/
theorem getLast?_append_quote {unit rest own later : List Char}
    (last : (unit ++ rest).getLast? = some '"') (ended : rest = [] → later = [])
    (ownLast : unit.getLast? = some '"' → own.getLast? = some '"')
    (laterLast : rest.getLast? = some '"' → later.getLast? = some '"') :
    (own ++ later).getLast? = some '"' := by
  rw [List.getLast?_append] at last ⊢
  cases isLast : rest.getLast? with
  | none =>
    have isOwn : unit.getLast? = some '"' := by simpa [isLast] using last
    rw [ended (List.getLast?_eq_none_iff.mp isLast), ownLast isOwn]
    rfl
  | some other =>
    have isQuote : rest.getLast? = some '"' := by simpa [isLast] using last
    rw [laterLast isQuote]
    rfl

theorem QuotedText.eq_nil (denotes : QuotedText chars text) (noChars : chars = []) : text = [] := by
  simpa [noChars] using denotes.length_le

/-- A quotation mark at the end is an escaped one. -/
theorem QuotedText.last_quote (denotes : QuotedText chars text) (last : chars.getLast? = some '"') :
    text.getLast? = some '"' := by
  induction denotes with
  | nil => cases last
  | @character char rest text notQuote _ _ denotes inductionHypothesis =>
    have split : ([char] ++ rest).getLast? = some '"' := last
    exact getLast?_append_quote split denotes.eq_nil id inductionHypothesis
  | @escaped name char rest text isEscape denotes inductionHypothesis =>
    have split : (['\\', name] ++ rest).getLast? = some '"' := last
    have own : ['\\', name].getLast? = some '"' → [char].getLast? = some '"' := by
      intro isQuote
      obtain rfl : name = '"' := by simpa using isQuote
      rw [← Option.some.inj isEscape]
      rfl
    exact getLast?_append_quote split denotes.eq_nil own inductionHypothesis
  | @unicode units char rest text areDigits _ denotes inductionHypothesis =>
    have own : (units.flatMap fun digits => '\\' :: 'u' :: digits).getLast? = some '"' →
        [char].getLast? = some '"' := by
      intro isQuote
      -- the last character of an escape is a digit
      obtain ⟨digits, isUnit, isChar⟩ := List.mem_flatMap.mp (List.mem_of_getLast? isQuote)
      have isDigit : '"' ∈ digits := by simpa using isChar
      exact absurd ((areDigits digits isUnit).2 _ isDigit) (by decide)
    exact getLast?_append_quote last denotes.eq_nil own inductionHypothesis

end Quoted

/-! ## Block strings -/

def quotes : List Char := ['"', '"', '"']

/-- The characters between the quotation marks of a block string, and its raw text: only three
    quotation marks can be escaped. -/
inductive BlockText : List Char → List Char → Prop
  | nil : BlockText [] []
  | escaped {rest raw : List Char} (denotes : BlockText rest raw) :
      BlockText ('\\' :: (quotes ++ rest)) (quotes ++ raw)
  | character {char : Char} {rest raw : List Char} (notEscape : ¬ '\\' :: quotes <+: char :: rest)
      (inside : ¬ quotes <+: char :: rest ++ quotes) (denotes : BlockText rest raw) :
      BlockText (char :: rest) (char :: raw)

/-- White space in a line. -/
def isBlankCharacter (char : Char) : Bool := char == '\t' || char == ' '

def isBlank (line : List Char) : Bool := line.all isBlankCharacter

/-- Every line terminator as one line feed. -/
def normalizeNewlines : List Char → List Char
  | [] => []
  | '\r' :: '\n' :: rest => '\n' :: normalizeNewlines rest
  | '\r' :: rest => '\n' :: normalizeNewlines rest
  | char :: rest => char :: normalizeNewlines rest

def blockLines (raw : List Char) : List (List Char) := (normalizeNewlines raw).splitOn '\n'

def indentOf (line : List Char) : Nat := (line.takeWhile isBlankCharacter).length

/-- The smallest indentation of the lines behind the first that are not blank. -/
def commonIndent (lines : List (List Char)) : Option Nat :=
  ((lines.tail.filter fun line => !isBlank line).map indentOf).min?

def dedent : List (List Char) → List (List Char)
  | [] => []
  | first :: rest =>
    first :: rest.map fun line => line.drop ((commonIndent (first :: rest)).getD 0)

/-- Without the blank lines before and after. -/
def trimBlankLines (lines : List (List Char)) : List (List Char) :=
  (lines.dropWhile isBlank).rdropWhile isBlank

def blockStringValue (raw : List Char) : List Char :=
  ['\n'].intercalate (trimBlankLines (dedent (blockLines raw)))

example : blockStringValue "\n    Hello,\n      World!\n\n    Yours.\n  ".toList =
    "Hello,\n  World!\n\nYours.".toList := by decide

section Block

variable {chars raw : List Char} {char : Char} {line : List Char} {lines : List (List Char)}

theorem BlockText.length_le (denotes : BlockText chars raw) : raw.length ≤ chars.length := by
  induction denotes with
  | nil => simp
  | escaped _ inductionHypothesis =>
    simp only [List.length_cons, List.length_append]
    omega
  | character _ _ _ inductionHypothesis => simpa using inductionHypothesis

theorem BlockText.length_lt (denotes : BlockText chars raw) (escapes : '\\' :: quotes <:+: chars) :
    raw.length < chars.length := by
  induction denotes with
  | nil => simp [quotes] at escapes
  | escaped denotes _ =>
    have shorter := denotes.length_le
    simp only [List.length_cons, List.length_append]
    omega
  | character notEscape _ _ inductionHypothesis =>
    have later := (List.infix_cons_iff.mp escapes).resolve_left notEscape
    simpa using inductionHypothesis later

theorem BlockText.eq_of_unescaped (denotes : BlockText chars raw)
    (unescaped : ¬ '\\' :: quotes <:+: chars) : raw = chars := by
  induction denotes with
  | nil => rfl
  | escaped _ _ =>
    exact absurd (List.IsPrefix.isInfix ⟨_, rfl⟩) unescaped
  | character _ _ _ inductionHypothesis =>
    rw [inductionHypothesis fun later => unescaped (List.infix_cons later)]

theorem BlockText.head (denotes : BlockText chars raw) (first : chars.head? = some '"') :
    raw.head? = some '"' := by
  cases denotes with
  | nil => cases first
  | escaped => simp at first
  | character => simpa using first

theorem BlockText.last (denotes : BlockText chars raw) (last : chars.getLast? = some '"') :
    raw.getLast? = some '"' := by
  induction denotes with
  | nil => cases last
  | @escaped rest raw denotes inductionHypothesis =>
    have split : (('\\' :: quotes) ++ rest).getLast? = some '"' := last
    have ended : rest = [] → raw = [] := fun noRest => by simpa [noRest] using denotes.length_le
    exact getLast?_append_quote split ended (fun _ => rfl) inductionHypothesis
  | @character char rest raw _ _ denotes inductionHypothesis =>
    have split : ([char] ++ rest).getLast? = some '"' := last
    have ended : rest = [] → raw = [] := fun noRest => by simpa [noRest] using denotes.length_le
    exact getLast?_append_quote split ended id inductionHypothesis

/-! ### Lines -/

theorem normalizeNewlines_cons (notReturn : char ≠ '\r') (rest : List Char) :
    normalizeNewlines (char :: rest) = char :: normalizeNewlines rest := by
  rw [normalizeNewlines]
  · simp [notReturn]
  · simp [notReturn]

theorem normalizeNewlines_concat (notReturn : char ≠ '\r') (notFeed : char ≠ '\n') (text : List Char) :
    normalizeNewlines (text ++ [char]) = normalizeNewlines text ++ [char] := by
  fun_induction normalizeNewlines text with
  | case1 => exact normalizeNewlines_cons notReturn []
  | case2 rest inductionHypothesis => simp [normalizeNewlines, inductionHypothesis]
  | case3 rest notPair inductionHypothesis =>
    have notPair' : ∀ tail, rest ++ [char] = '\n' :: tail → False := by
      intro tail isPair
      cases rest with
      | nil => simp [notFeed] at isPair
      | cons next rest => exact notPair rest (by rw [(List.cons.inj isPair).1])
    rw [List.cons_append, normalizeNewlines, inductionHypothesis, List.cons_append]
    exact notPair'
  | case4 other rest _ notReturn' inductionHypothesis =>
    rw [List.cons_append, normalizeNewlines_cons notReturn', inductionHypothesis, List.cons_append]

theorem length_normalizeNewlines_le (text : List Char) : (normalizeNewlines text).length ≤ text.length := by
  fun_induction normalizeNewlines text with
  | case1 => simp
  | _ => simp only [List.length_cons]; omega

theorem return_not_mem_normalizeNewlines (text : List Char) : '\r' ∉ normalizeNewlines text := by
  fun_induction normalizeNewlines text with
  | case1 => simp
  | case2 rest inductionHypothesis => simp [inductionHypothesis]
  | case3 rest _ inductionHypothesis => simp [inductionHypothesis]
  | case4 other rest _ notReturn inductionHypothesis =>
    simp [inductionHypothesis, Ne.symm notReturn]

theorem normalizeNewlines_eq_self {text : List Char} (noReturn : '\r' ∉ text) :
    normalizeNewlines text = text := by
  induction text with
  | nil => rfl
  | cons char text inductionHypothesis =>
    have notReturn : char ≠ '\r' := fun same => noReturn (by simp [same])
    rw [normalizeNewlines_cons notReturn,
      inductionHypothesis fun later => noReturn (List.mem_cons_of_mem _ later)]

/-- A line that is not blank, at the front. -/
theorem trimBlankLines_front (notBlank : isBlank line = false) (others : List (List Char)) :
    ∃ more, trimBlankLines (line :: others) = line :: more := by
  rw [trimBlankLines, List.dropWhile_cons_of_neg (by simp [notBlank])]
  have isPrefix := List.rdropWhile_prefix isBlank (line :: others)
  cases kept : (line :: others).rdropWhile isBlank with
  | nil =>
    have blank := List.rdropWhile_eq_nil_iff.mp kept line List.mem_cons_self
    rw [notBlank] at blank
    cases blank
  | cons first more =>
    rw [kept, List.cons_prefix_cons] at isPrefix
    exact ⟨more, by rw [isPrefix.1]⟩

/-- And at the end. -/
theorem trimBlankLines_back (notBlank : isBlank line = false) (others : List (List Char)) :
    ∃ more, trimBlankLines (others ++ [line]) = more ++ [line] := by
  have dropped : ∃ more, (others ++ [line]).dropWhile isBlank = more ++ [line] := by
    induction others with
    | nil => exact ⟨[], by simp [notBlank]⟩
    | cons first others inductionHypothesis =>
      rw [List.cons_append, List.dropWhile_cons]
      split
      · exact inductionHypothesis
      · exact ⟨first :: others, rfl⟩
  obtain ⟨more, dropped⟩ := dropped
  rw [trimBlankLines, dropped, List.rdropWhile_concat_neg _ _ _ (by simp [notBlank])]
  exact ⟨more, rfl⟩

theorem commonIndent_le (first : List Char) {others : List (List Char)} (member : line ∈ others)
    (notBlank : isBlank line = false) : (commonIndent (first :: others)).getD 0 ≤ indentOf line := by
  have isIndent : indentOf line ∈
      (((first :: others).tail.filter fun line => !isBlank line).map indentOf) :=
    List.mem_map_of_mem (List.mem_filter.mpr ⟨member, by simp [notBlank]⟩)
  cases smallest : commonIndent (first :: others) with
  | none => exact Nat.zero_le _
  | some indent => exact ((List.min?_eq_some_iff).mp smallest).2 _ isIndent

theorem isBlank_append (notBlank : isBlankCharacter char = false) (line rest : List Char) :
    isBlank (line ++ char :: rest) = false := by
  simp [isBlank, notBlank]

theorem indentOf_concat_le (notBlank : isBlankCharacter char = false) (line : List Char) :
    indentOf (line ++ [char]) ≤ line.length := by
  induction line with
  | nil => simp [indentOf, notBlank]
  | cons first line inductionHypothesis =>
    unfold indentOf at *
    rw [List.cons_append, List.takeWhile_cons]
    split
    · simpa using inductionHypothesis
    · simp

/-- The last line loses white space only. -/
theorem dedent_concat (notBlank : isBlankCharacter char = false) (others : List (List Char)) (line : List Char) :
    ∃ others' line', dedent (others ++ [line ++ [char]]) = others' ++ [line' ++ [char]] := by
  cases others with
  | nil => exact ⟨[], line, rfl⟩
  | cons first others =>
    have within := (commonIndent_le first (List.mem_append_right others (List.mem_singleton_self _))
      (isBlank_append notBlank line [])).trans (indentOf_concat_le notBlank line)
    rw [List.cons_append, dedent, List.map_append, List.map_singleton, List.drop_append_of_le_length within]
    exact ⟨_ :: _, _, rfl⟩

/-- A character that is no white space stays at the front of a block string. -/
theorem head_blockStringValue (notReturn : char ≠ '\r') (notFeed : char ≠ '\n')
    (notBlank : isBlankCharacter char = false) (rest : List Char) :
    (blockStringValue (char :: rest)).head? = some char := by
  obtain ⟨first, others, -, lines⟩ := exists_splitOn_cons notFeed (normalizeNewlines rest)
  obtain ⟨more, trimmed⟩ := trimBlankLines_front (isBlank_append notBlank [] first)
    (others.map fun line => line.drop ((commonIndent ((char :: first) :: others)).getD 0))
  rw [blockStringValue, blockLines, normalizeNewlines_cons notReturn, lines, dedent]
  rw [List.nil_append] at trimmed
  rw [trimmed, head?_intercalate _ _ (by simp)]
  rfl

/-- And at the end. -/
theorem getLast_blockStringValue (notReturn : char ≠ '\r') (notFeed : char ≠ '\n')
    (notBlank : isBlankCharacter char = false) (rest : List Char) :
    (blockStringValue (rest ++ [char])).getLast? = some char := by
  obtain ⟨others, line, lines⟩ := exists_splitOn_concat notFeed (normalizeNewlines rest)
  obtain ⟨others', line', dedented⟩ := dedent_concat notBlank others line
  obtain ⟨more, trimmed⟩ := trimBlankLines_back (isBlank_append notBlank line' []) others'
  rw [blockStringValue, blockLines, normalizeNewlines_concat notReturn notFeed, lines, dedented, trimmed,
    getLast?_intercalate _ _ (by simp), List.getLast?_append]
  rfl

/-! ### Length -/

theorem trimBlankLines_sublist (lines : List (List Char)) : (trimBlankLines lines).Sublist lines :=
  (List.rdropWhile_prefix _ _).sublist.trans (List.dropWhile_suffix _).sublist

theorem length_dedent (lines : List (List Char)) : (dedent lines).length = lines.length := by
  cases lines <;> simp [dedent]

theorem sum_dedent_le (lines : List (List Char)) :
    ((dedent lines).map List.length).sum ≤ (lines.map List.length).sum := by
  cases lines with
  | nil => simp [dedent]
  | cons first others =>
    simp only [dedent, List.map_cons, List.map_map, List.sum_cons, Nat.add_le_add_iff_left]
    apply List.sum_le_sum
    intro line _
    simp

/-- A block string never gets longer. -/
theorem length_blockStringValue_le (raw : List Char) : (blockStringValue raw).length ≤ raw.length := by
  have pieces := length_intercalate '\n' (blockLines raw)
  rw [blockLines, List.intercalate_splitOn, ← blockLines] at pieces
  have sublist := trimBlankLines_sublist (dedent (blockLines raw))
  have fewer := sublist.length_le
  have shorter := (sublist.map List.length).sum_le_sum fun _ _ => Nat.zero_le _
  have dedented := sum_dedent_le (blockLines raw)
  have normalized := length_normalizeNewlines_le raw
  rw [length_dedent] at fewer
  rw [blockStringValue, length_intercalate]
  omega

/-! ### Strings that denote themselves -/

/-- Neither line terminators nor indentation nor blank lines around it are changed. -/
structure IsFlush (raw : List Char) : Prop where
  noReturn : '\r' ∉ raw
  first : ∀ line ∈ (blockLines raw).head?, isBlank line = false
  last : ∀ line ∈ (blockLines raw).getLast?, isBlank line = false
  indent : (commonIndent (blockLines raw)).getD 0 = 0

theorem IsFlush.blockStringValue_eq (flush : IsFlush raw) : blockStringValue raw = raw := by
  have dedented : dedent (blockLines raw) = blockLines raw := by
    have noIndent := flush.indent
    cases lines : blockLines raw with
    | nil => rfl
    | cons first others =>
      rw [lines] at noIndent
      simp [dedent, noIndent]
  have trimmed : trimBlankLines (blockLines raw) = blockLines raw := by
    have front := flush.first
    have back := flush.last
    cases lines : blockLines raw with
    | nil => rfl
    | cons first others =>
      rw [lines] at front back
      rw [trimBlankLines, List.dropWhile_cons_of_neg (by simp [front first rfl]), List.rdropWhile_eq_self_iff]
      intro notNil isBlank
      rw [back _ (List.getLast?_eq_getLast_of_ne_nil notNil)] at isBlank
      cases isBlank
  rw [blockStringValue, dedented, trimmed, blockLines, List.intercalate_splitOn,
    normalizeNewlines_eq_self flush.noReturn]

theorem exists_of_mem_dedent (member : line ∈ dedent lines) : ∃ other ∈ lines, line <:+ other := by
  cases lines with
  | nil => cases member
  | cons first others =>
    rw [dedent, List.mem_cons] at member
    cases member with
    | inl isFirst => exact ⟨first, List.mem_cons_self, isFirst ▸ List.suffix_refl _⟩
    | inr later =>
      obtain ⟨other, isOther, rfl⟩ := List.mem_map.mp later
      exact ⟨other, List.mem_cons_of_mem _ isOther, List.drop_suffix _ _⟩

/-- The lines that are left have no line terminators. -/
theorem terminators_not_mem (raw : List Char) :
    ∀ line ∈ trimBlankLines (dedent (blockLines raw)), '\n' ∉ line ∧ '\r' ∉ line := by
  intro line member
  obtain ⟨other, isLine, isSuffix⟩ := exists_of_mem_dedent ((trimBlankLines_sublist _).subset member)
  constructor
  · exact fun isFeed => not_mem_of_mem_splitOn _ other isLine (isSuffix.subset isFeed)
  · exact fun isReturn => return_not_mem_normalizeNewlines raw
      (mem_of_mem_splitOn _ other isLine _ (isSuffix.subset isReturn))

/-- If no line is left out, the first and the last are not blank. -/
theorem ends_of_trimBlankLines_eq (kept : trimBlankLines lines = lines) :
    (∀ line ∈ lines.head?, isBlank line = false) ∧ ∀ line ∈ lines.getLast?, isBlank line = false := by
  have isSublist : (trimBlankLines lines).Sublist (lines.dropWhile isBlank) :=
    (List.rdropWhile_prefix _ _).sublist
  rw [kept] at isSublist
  have dropped : lines.dropWhile isBlank = lines :=
    (isSublist.eq_of_length_le (List.dropWhile_suffix _).length_le).symm
  rw [trimBlankLines, dropped] at kept
  constructor
  · intro line isFirst
    cases lines with
    | nil => cases isFirst
    | cons first others =>
      obtain rfl : first = line := by simpa using isFirst
      have notBlank : ¬ isBlank first = true := List.dropWhile_eq_self_iff.mp dropped (by simp)
      simpa using notBlank
  · intro line isLast
    obtain ⟨notNil, rfl⟩ := List.mem_getLast?_eq_getLast isLast
    simpa using List.rdropWhile_eq_self_iff.mp kept notNil

theorem indent_of_dedent_eq (kept : dedent lines = lines) : (commonIndent lines).getD 0 = 0 := by
  cases lines with
  | nil => rfl
  | cons first others =>
    cases smallest : commonIndent (first :: others) with
    | none => rfl
    | some indent =>
      obtain ⟨line, isLine, isIndent⟩ := List.mem_map.mp (List.min?_mem smallest)
      obtain ⟨member, notBlank⟩ := List.mem_filter.mp isLine
      have same : ∀ other ∈ others, other.drop indent = other := by
        rw [dedent, smallest, List.cons.injEq] at kept
        exact List.map_inj_left.mp (kept.2.trans (List.map_id others).symm)
      have isLonger : indent ≤ line.length := by
        rw [← isIndent]
        exact (List.takeWhile_prefix _).length_le
      have length := congrArg List.length (same line member)
      rw [List.length_drop] at length
      cases line with
      | nil => simp [isBlank] at notBlank
      | cons char line =>
        simp only [List.length_cons] at length isLonger
        simp only [Option.getD_some]
        omega

/-- A block string denotes its own characters exactly if it is empty or flush. -/
theorem blockStringValue_eq_self_iff : blockStringValue raw = raw ↔ raw = [] ∨ IsFlush raw := by
  constructor
  · intro same
    by_cases isNil : raw = []
    · exact .inl isNil
    have joined : ['\n'].intercalate (trimBlankLines (dedent (blockLines raw))) = raw := same
    have noReturn : '\r' ∉ raw := by
      intro isReturn
      rw [← joined] at isReturn
      obtain isFeed | ⟨line, member, inLine⟩ := mem_intercalate isReturn
      · cases isFeed
      · exact (terminators_not_mem raw line member).2 inLine
    have notNil : trimBlankLines (dedent (blockLines raw)) ≠ [] := by
      intro isEmpty
      rw [isEmpty] at joined
      exact isNil joined.symm
    -- the lines that are left are all there were
    have lines : blockLines raw = trimBlankLines (dedent (blockLines raw)) := by
      have split := List.splitOn_intercalate '\n' (fun line member => (terminators_not_mem raw line member).1)
        notNil
      rw [joined] at split
      rw [← split, blockLines, normalizeNewlines_eq_self noReturn]
    have trimmed : trimBlankLines (dedent (blockLines raw)) = dedent (blockLines raw) := by
      apply (trimBlankLines_sublist _).eq_of_length_le
      rw [← lines, length_dedent]
    have dedented : dedent (blockLines raw) = blockLines raw := trimmed.symm.trans lines.symm
    rw [dedented] at trimmed
    obtain ⟨first, last⟩ := ends_of_trimBlankLines_eq trimmed
    exact .inr ⟨noReturn, first, last, indent_of_dedent_eq dedented⟩
  · intro plain
    obtain rfl | flush := plain
    · rfl
    · exact flush.blockStringValue_eq

end Block

end SpectraGQL.Protocol
