import SpectraGQL.Interceptors.Sanitizer
import Mathlib.Data.List.Infix

/-! # Spellings of a key (`interceptors/sanitizer.rs`, `split_key_tokens`, `is_sensitive_key`)

A key is a row of words, spelled with separators between them or in camel case.  The tokens of
the first spellings are the words.  In camel case a capital after a capital does not end a token,
so that a word of one letter is read together with the word after it.
-/

namespace SpectraGQL.Interceptors

open SpectraGQL.Http

/-- A word of lower-case letters. -/
structure KeyWord where
  letters : List Char
  nonempty : letters ≠ []
  lowercase : ∀ char ∈ letters, char.isLower = true

namespace KeyWord

def text (word : KeyWord) : String := String.ofList word.letters

/-- The word with a capital. -/
def capitalized (word : KeyWord) : List Char :=
  (word.letters.head word.nonempty).toUpper :: word.letters.tail

/-- `snake_case` and `kebab-case`. -/
def separated (separator : Char) (words : List KeyWord) : String :=
  String.ofList ([separator].intercalate (words.map letters))

def snakeCase : List KeyWord → String := separated '_'

def kebabCase : List KeyWord → String := separated '-'

def camelCase : List KeyWord → String
  | [] => ""
  | word :: words => String.ofList (word.letters ++ words.flatMap capitalized)

/-- The words after the first, each word of one letter joined to what follows it. -/
def joined (before : List Char) : List KeyWord → List String
  | [] => if before.isEmpty then [] else [String.ofList before]
  | word :: words =>
    if word.letters.length = 1 then joined (before ++ word.letters) words
    else String.ofList (before ++ word.letters) :: joined [] words

/-- What can be told apart in camel case. -/
def humps : List KeyWord → List String
  | [] => []
  | word :: words => word.text :: joined [] words

end KeyWord

/-! ## Characters of a word -/

/-- There are 26 lower-case letters. -/
theorem forall_lower (property : Char → Prop) (all : ∀ index < 26, property (Char.ofNat (97 + index)))
    {char : Char} (lower : char.isLower = true) : property char := by
  unfold Char.isLower at lower
  simp only [Bool.and_eq_true, decide_eq_true_eq, ge_iff_le, UInt32.le_iff_toNat_le] at lower
  have least : 97 ≤ char.toNat := lower.1
  have greatest : char.toNat ≤ 122 := lower.2
  have isLetter := all (char.toNat - 97) (by omega)
  rwa [Nat.add_sub_cancel' least, Char.ofNat_toNat] at isLetter

theorem isUpper_eq_false {char : Char} (lower : char.isLower = true) : char.isUpper = false :=
  forall_lower (fun char => char.isUpper = false) (by decide) lower

theorem isKeySeparator_eq_false {char : Char} (lower : char.isLower = true) : isKeySeparator char = false :=
  forall_lower (fun char => isKeySeparator char = false) (by decide) lower

theorem toLower_eq_self {char : Char} (lower : char.isLower = true) : char.toLower = char :=
  forall_lower (fun char => char.toLower = char) (by decide) lower

theorem toLower_toUpper {char : Char} (lower : char.isLower = true) : char.toUpper.toLower = char :=
  forall_lower (fun char => char.toUpper.toLower = char) (by decide) lower

theorem isUpper_toUpper {char : Char} (lower : char.isLower = true) : char.toUpper.isUpper = true :=
  forall_lower (fun char => char.toUpper.isUpper = true) (by decide) lower

theorem isKeySeparator_toUpper {char : Char} (lower : char.isLower = true) : isKeySeparator char.toUpper = false :=
  forall_lower (fun char => isKeySeparator char.toUpper = false) (by decide) lower

namespace KeyWord

theorem head_lowercase (word : KeyWord) : (word.letters.head word.nonempty).isLower = true :=
  word.lowercase _ (List.head_mem _)

theorem tail_lowercase (word : KeyWord) : ∀ char ∈ word.letters.tail, char.isLower = true :=
  fun char member => word.lowercase char (List.mem_of_mem_tail member)

theorem map_toLower_eq_self {letters : List Char} (lower : ∀ char ∈ letters, char.isLower = true) :
    letters.map Char.toLower = letters := by
  have same : letters.map Char.toLower = letters.map id :=
    List.map_congr_left fun char member => toLower_eq_self (lower char member)
  rw [same, List.map_id]

theorem map_toLower_capitalized (word : KeyWord) : word.capitalized.map Char.toLower = word.letters := by
  rw [capitalized, List.map_cons, toLower_toUpper word.head_lowercase,
    map_toLower_eq_self word.tail_lowercase]
  exact List.cons_head_tail word.nonempty

end KeyWord

/-! ## Tokens -/

/-- Lower-case letters are added to the token. -/
theorem splitKeyTokensFrom_append {letters : List Char} (lower : ∀ char ∈ letters, char.isLower = true)
    (current : List Char) (prevIsLower : Bool) (rest : List Char) :
    splitKeyTokensFrom current prevIsLower (letters ++ rest) =
      splitKeyTokensFrom (current ++ letters) (prevIsLower || !letters.isEmpty) rest := by
  induction letters generalizing current prevIsLower with
  | nil => simp
  | cons char letters inductionHypothesis =>
    have isLower := lower char List.mem_cons_self
    have others : ∀ other ∈ letters, other.isLower = true :=
      fun other member => lower other (List.mem_cons_of_mem _ member)
    rw [List.cons_append, splitKeyTokensFrom, isKeySeparator_eq_false isLower, isUpper_eq_false isLower]
    simp [inductionHypothesis others]

/-- A capital after another one or at the beginning is added to the token as well. -/
theorem splitKeyTokensFrom_capital {char : Char} (lower : char.isLower = true) (current rest : List Char) :
    splitKeyTokensFrom current false (char.toUpper :: rest) =
      splitKeyTokensFrom (current ++ [char.toUpper]) false rest := by
  simp [splitKeyTokensFrom, isKeySeparator_toUpper lower, isUpper_toUpper lower]

theorem flushToken_of_ne_nil {current : List Char} (filled : current ≠ []) :
    flushToken current = [String.ofList (current.map Char.toLower)] := by
  simp [flushToken, filled, toLowercase]

theorem splitKeyTokens_separated {separator : Char} (separates : isKeySeparator separator = true)
    (words : List KeyWord) :
    splitKeyTokens (KeyWord.separated separator words) = words.map KeyWord.text := by
  unfold splitKeyTokens KeyWord.separated
  rw [String.toList_ofList]
  induction words with
  | nil => rfl
  | cons word words inductionHypothesis =>
    have token : flushToken word.letters = [word.text] := by
      rw [flushToken_of_ne_nil word.nonempty, KeyWord.map_toLower_eq_self word.lowercase]
      rfl
    cases words with
    | nil =>
      have only := splitKeyTokensFrom_append word.lowercase [] false []
      simp only [List.append_nil, List.nil_append] at only
      simp [only, splitKeyTokensFrom, token]
    | cons next words =>
      have first : [separator].intercalate ((word :: next :: words).map KeyWord.letters) =
          word.letters ++ separator :: [separator].intercalate ((next :: words).map KeyWord.letters) := by
        simp [List.intercalate]
      rw [first, splitKeyTokensFrom_append word.lowercase, splitKeyTokensFrom, if_pos separates,
        List.nil_append, token, inductionHypothesis]
      rfl

/-- A capital after a lower-case letter begins a token. -/
theorem splitKeyTokensFrom_flatMap {current : List Char} (filled : current ≠ []) (words : List KeyWord) :
    splitKeyTokensFrom current true (words.flatMap KeyWord.capitalized) =
      String.ofList (current.map Char.toLower) ::
        splitKeyTokensFrom [] false (words.flatMap KeyWord.capitalized) := by
  cases words with
  | nil =>
    have nothing : flushToken [] = [] := rfl
    simp [splitKeyTokensFrom, flushToken_of_ne_nil filled, nothing]
  | cons word words =>
    rw [List.flatMap_cons, KeyWord.capitalized, List.cons_append,
      splitKeyTokensFrom_capital word.head_lowercase]
    simp [splitKeyTokensFrom, isKeySeparator_toUpper word.head_lowercase,
      isUpper_toUpper word.head_lowercase, filled, flushToken_of_ne_nil]

/-- As long as no token has been ended, capitals pile up. -/
theorem splitKeyTokensFrom_capitalized (current : List Char) (words : List KeyWord) :
    splitKeyTokensFrom current false (words.flatMap KeyWord.capitalized) =
      KeyWord.joined (current.map Char.toLower) words := by
  induction words generalizing current with
  | nil => simp [splitKeyTokensFrom, flushToken, KeyWord.joined, toLowercase]
  | cons word words inductionHypothesis =>
    have lowered : (current ++ word.capitalized).map Char.toLower =
        current.map Char.toLower ++ word.letters := by
      rw [List.map_append, word.map_toLower_capitalized]
    have pushed : splitKeyTokensFrom current false ((word :: words).flatMap KeyWord.capitalized) =
        splitKeyTokensFrom (current ++ word.capitalized) (!word.letters.tail.isEmpty)
          (words.flatMap KeyWord.capitalized) := by
      rw [List.flatMap_cons, KeyWord.capitalized, List.cons_append,
        splitKeyTokensFrom_capital word.head_lowercase, splitKeyTokensFrom_append word.tail_lowercase]
      simp
    have length : word.letters.length = word.letters.tail.length + 1 := by
      rw [← List.length_cons, List.cons_head_tail word.nonempty]
    rw [pushed, KeyWord.joined]
    cases rest : word.letters.tail with
    | nil =>
      have single : word.letters.length = 1 := by simp [length, rest]
      rw [if_pos single, ← lowered]
      exact inductionHypothesis (current ++ word.capitalized)
    | cons char letters =>
      -- the first small letter ends the pile, and from here on every capital begins a token
      have several : ¬ word.letters.length = 1 := by simp [length, rest]
      have filled : current ++ word.capitalized ≠ [] := by simp [KeyWord.capitalized]
      rw [if_neg several, ← lowered]
      simpa [inductionHypothesis] using splitKeyTokensFrom_flatMap filled words

theorem splitKeyTokens_camelCase (words : List KeyWord) :
    splitKeyTokens (KeyWord.camelCase words) = KeyWord.humps words := by
  cases words with
  | nil => rfl
  | cons word words =>
    have lower : (false || !word.letters.isEmpty) = true := by simp [word.nonempty]
    rw [splitKeyTokens, KeyWord.camelCase, String.toList_ofList,
      splitKeyTokensFrom_append word.lowercase, List.nil_append, lower,
      splitKeyTokensFrom_flatMap word.nonempty, splitKeyTokensFrom_capitalized,
      KeyWord.map_toLower_eq_self word.lowercase]
    rfl

/-! ## Classification -/

/-- At most four tokens in a row spell a sensitive key. -/
def SensitiveInARow (sanitizer : Sanitizer) (tokens : List String) : Prop :=
  ∃ run, run <:+: tokens ∧ run ≠ [] ∧ run.length ≤ 4 ∧ sanitizer.matchesKey (String.join run) = true

theorem mem_compounds {tokens : List String} {spelling : String} :
    spelling ∈ compounds tokens ↔
      ∃ run, run <:+: tokens ∧ run ≠ [] ∧ run.length ≤ 4 ∧ spelling = String.join run := by
  induction tokens with
  | nil => simp [compounds]
  | cons token tokens inductionHypothesis =>
    simp only [compounds, List.mem_append, List.mem_map, List.mem_range, inductionHypothesis]
    constructor
    · intro found
      cases found with
      | inl first =>
        obtain ⟨count, bound, rfl⟩ := first
        refine ⟨token :: tokens.take count, ?_, by simp, by simp; omega, rfl⟩
        exact (List.cons_prefix_cons.mpr ⟨rfl, List.take_prefix count tokens⟩).isInfix
      | inr later =>
        obtain ⟨run, inTokens, filled, short, same⟩ := later
        exact ⟨run, List.infix_cons inTokens, filled, short, same⟩
    · rintro ⟨run, inTokens, filled, short, same⟩
      -- the run begins at the first token or lies behind it
      cases List.infix_cons_iff.mp inTokens with
      | inl first =>
        cases run with
        | nil => exact absurd rfl filled
        | cons head run =>
          obtain ⟨rfl, isPrefix⟩ := List.cons_prefix_cons.mp first
          have taken : run = tokens.take run.length := List.prefix_iff_eq_take.mp isPrefix
          simp only [List.length_cons] at short
          exact .inl ⟨run.length, by omega, by rw [← taken, same]⟩
      | inr later => exact .inr ⟨run, later, filled, short, same⟩

namespace Sanitizer

theorem isSensitiveKey_iff (sanitizer : Sanitizer) (key : String) :
    sanitizer.isSensitiveKey key = true ↔
      sanitizer.matchesKey (withoutDashes (toLowercase key)) = true ∨
        SensitiveInARow sanitizer (splitKeyTokens key) := by
  simp only [isSensitiveKey, Bool.or_eq_true, or_assoc, List.any_eq_true]
  refine or_congr_right ?_
  constructor
  · intro found
    cases found with
    | inl single =>
      obtain ⟨token, member, isKey⟩ := single
      exact ⟨[token], (List.singleton_infix_iff token _).mpr member, by simp, by simp, by simpa using isKey⟩
    | inr several =>
      obtain ⟨spelling, member, isKey⟩ := several
      obtain ⟨run, inTokens, filled, short, rfl⟩ := mem_compounds.mp member
      exact ⟨run, inTokens, filled, short, isKey⟩
  · rintro ⟨run, inTokens, filled, short, isKey⟩
    exact .inr ⟨_, mem_compounds.mpr ⟨run, inTokens, filled, short, rfl⟩, isKey⟩

end Sanitizer

theorem filter_letters (word : KeyWord) :
    word.letters.filter (fun char => !(char == '-' || char == '_')) = word.letters := by
  rw [List.filter_eq_self]
  intro char member
  have notSeparator := isKeySeparator_eq_false (word.lowercase char member)
  simp only [isKeySeparator, Bool.or_eq_false_iff] at notSeparator
  simp [notSeparator]

/-- Without dashes and capitals all spellings are the words put together. -/
theorem withoutDashes_separated {separator : Char} (isDash : separator = '-' ∨ separator = '_')
    (words : List KeyWord) :
    withoutDashes (toLowercase (KeyWord.separated separator words)) =
      String.join (words.map KeyWord.text) := by
  apply String.toList_injective
  simp only [withoutDashes, toLowercase, KeyWord.separated, String.toList_ofList, String.toList_join]
  induction words with
  | nil => rfl
  | cons word words inductionHypothesis =>
    have own := filter_letters word
    cases words with
    | nil =>
      have only : [separator].intercalate ([word].map KeyWord.letters) = word.letters := by
        simp [List.intercalate]
      rw [only, KeyWord.map_toLower_eq_self word.lowercase, own]
      simp [KeyWord.text]
    | cons next words =>
      have first : [separator].intercalate ((word :: next :: words).map KeyWord.letters) =
          word.letters ++ separator :: [separator].intercalate ((next :: words).map KeyWord.letters) := by
        simp [List.intercalate]
      have dropped : (!(separator.toLower == '-' || separator.toLower == '_')) = false := by
        cases isDash with
        | inl dash => rw [dash]; decide
        | inr underscore => rw [underscore]; decide
      rw [first, List.map_append, List.filter_append, List.map_cons, List.filter_cons, dropped,
        KeyWord.map_toLower_eq_self word.lowercase, own, inductionHypothesis]
      simp [KeyWord.text]

theorem withoutDashes_camelCase (words : List KeyWord) :
    withoutDashes (toLowercase (KeyWord.camelCase words)) = String.join (words.map KeyWord.text) := by
  have lowered : ∀ words : List KeyWord,
      ((words.flatMap KeyWord.capitalized).map Char.toLower).filter
        (fun char => !(char == '-' || char == '_')) = words.flatMap KeyWord.letters := by
    intro words
    induction words with
    | nil => rfl
    | cons word words inductionHypothesis =>
      rw [List.flatMap_cons, List.map_append, List.filter_append, word.map_toLower_capitalized,
        filter_letters, inductionHypothesis, List.flatMap_cons]
  apply String.toList_injective
  cases words with
  | nil => rfl
  | cons word words =>
    rw [withoutDashes, toLowercase, KeyWord.camelCase, String.toList_ofList, String.toList_ofList,
      String.toList_ofList, List.map_append, List.filter_append, lowered,
      KeyWord.map_toLower_eq_self word.lowercase, filter_letters]
    simp [KeyWord.text, List.flatMap_map]

namespace Sanitizer

/-- A key is classified alike in every spelling exactly when its words as a whole are a sensitive
key, or a few of its words in a row spell one just if a few of its humps do. -/
theorem isSensitiveKey_agrees_iff (sanitizer : Sanitizer) (words : List KeyWord) :
    (sanitizer.isSensitiveKey (KeyWord.kebabCase words) =
          sanitizer.isSensitiveKey (KeyWord.snakeCase words) ∧
        sanitizer.isSensitiveKey (KeyWord.camelCase words) =
          sanitizer.isSensitiveKey (KeyWord.snakeCase words)) ↔
      sanitizer.matchesKey (String.join (words.map KeyWord.text)) = true ∨
        (SensitiveInARow sanitizer (words.map KeyWord.text) ↔
          SensitiveInARow sanitizer (KeyWord.humps words)) := by
  have separated {separator : Char} (isDash : separator = '-' ∨ separator = '_') :
      sanitizer.isSensitiveKey (KeyWord.separated separator words) = true ↔
        sanitizer.matchesKey (String.join (words.map KeyWord.text)) = true ∨
          SensitiveInARow sanitizer (words.map KeyWord.text) := by
    have separates : isKeySeparator separator = true := by
      cases isDash with
      | inl dash => rw [dash]; decide
      | inr underscore => rw [underscore]; decide
    rw [isSensitiveKey_iff, withoutDashes_separated isDash, splitKeyTokens_separated separates]
  have camel : sanitizer.isSensitiveKey (KeyWord.camelCase words) = true ↔
      sanitizer.matchesKey (String.join (words.map KeyWord.text)) = true ∨
        SensitiveInARow sanitizer (KeyWord.humps words) := by
    rw [isSensitiveKey_iff, withoutDashes_camelCase, splitKeyTokens_camelCase]
  -- dashes and underscores separate alike, so it is all about the humps
  have kebab : sanitizer.isSensitiveKey (KeyWord.kebabCase words) =
      sanitizer.isSensitiveKey (KeyWord.snakeCase words) :=
    Bool.eq_iff_iff.mpr ((separated (.inl rfl)).trans (separated (.inr rfl)).symm)
  have snake : sanitizer.isSensitiveKey (KeyWord.snakeCase words) = true ↔ _ := separated (.inr rfl)
  rw [and_iff_right kebab, Bool.eq_iff_iff, camel, snake]
  by_cases whole : sanitizer.matchesKey (String.join (words.map KeyWord.text)) = true
  · simp only [whole, true_or]
  · simp only [whole, Bool.false_eq_true, false_or]
    exact ⟨Iff.symm, Iff.symm⟩

end Sanitizer

/-- Only words of one letter are joined to others. -/
theorem KeyWord.joined_eq_map {words : List KeyWord}
    (long : ∀ word ∈ words.dropLast, word.letters.length ≠ 1) :
    KeyWord.joined [] words = words.map KeyWord.text := by
  induction words with
  | nil => rfl
  | cons word words inductionHypothesis =>
    cases words with
    | nil =>
      have filled : word.letters.isEmpty = false := by simp [word.nonempty]
      simp [joined, text, filled]
    | cons next words =>
      have own := long word (by simp)
      rw [joined, if_neg own, List.nil_append, inductionHypothesis]
      · rfl
      · intro other member
        exact long other (by simp [List.dropLast_cons_of_ne_nil, member])

namespace Sanitizer

/-- The spellings are told apart only by words of one letter within the key. -/
theorem isSensitiveKey_agrees_of_long {sanitizer : Sanitizer} {first : KeyWord} {words : List KeyWord}
    (long : ∀ word ∈ words.dropLast, word.letters.length ≠ 1) :
    sanitizer.isSensitiveKey (KeyWord.kebabCase (first :: words)) =
        sanitizer.isSensitiveKey (KeyWord.snakeCase (first :: words)) ∧
      sanitizer.isSensitiveKey (KeyWord.camelCase (first :: words)) =
        sanitizer.isSensitiveKey (KeyWord.snakeCase (first :: words)) := by
  rw [isSensitiveKey_agrees_iff]
  refine .inr ?_
  rw [KeyWord.humps, KeyWord.joined_eq_map long, List.map_cons]

/-- `userXPin` is not taken for `user_x_pin`. -/
theorem one_letter_hides_pin :
    ∃ words : List KeyWord, words ≠ [] ∧ KeyWord.snakeCase words = "user_x_pin" ∧
      KeyWord.camelCase words = "userXPin" ∧
      defaultSanitizer.isSensitiveKey (KeyWord.snakeCase words) = true ∧
      defaultSanitizer.isSensitiveKey (KeyWord.camelCase words) = false := by
  let user : KeyWord := ⟨['u', 's', 'e', 'r'], by decide, List.all_eq_true.mp (by decide)⟩
  let x : KeyWord := ⟨['x'], by decide, List.all_eq_true.mp (by decide)⟩
  let pin : KeyWord := ⟨['p', 'i', 'n'], by decide, List.all_eq_true.mp (by decide)⟩
  have snake : KeyWord.snakeCase [user, x, pin] = "user_x_pin" := by decide
  have camel : KeyWord.camelCase [user, x, pin] = "userXPin" := by decide
  refine ⟨[user, x, pin], by simp, snake, camel, ?_, ?_⟩
  · rw [snake]
    decide +kernel
  · rw [camel]
    decide +kernel

end Sanitizer

end SpectraGQL.Interceptors
