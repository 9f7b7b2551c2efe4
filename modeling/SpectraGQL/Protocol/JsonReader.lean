import SpectraGQL.Protocol.JsonText
import Mathlib.Data.String.Basic

/-! # Reading JSON texts

`Json.read` is `serde_json::from_str` for values: blanks between tokens, escapes with surrogates, and
no more levels of arrays and objects than the recursion limit allows.  A number is kept as its text.

The members of an object come out in the order of the text, each as often as it is there;
`Json.normalize` makes of that the value which `serde_json` keeps.

`Json.read_toString` says that a value which fits the limit is read back from its text, and
`Json.fits_of_read` that every value read fits.
-/

namespace SpectraGQL.Protocol

open SpectraGQL.Idempotency RecordJson

namespace Json

/-! ## Reading -/

/-- What stands between tokens. -/
def isBlank (char : Char) : Bool := char = ' ' || char = '\n' || char = '\t' || char = '\r'

def skipBlanks (input : List Char) : List Char := input.dropWhile isBlank

/-- What follows a token, if it is the next. -/
def token (char : Char) (input : List Char) : Option (List Char) :=
  match skipBlanks input with
  | next :: rest => if next = char then some rest else none
  | [] => none

def hexDigit (char : Char) : Option Nat :=
  if char.isDigit then some (char.toNat - '0'.toNat)
  else if 'a' ≤ char ∧ char ≤ 'f' then some (char.toNat - 'a'.toNat + 10)
  else if 'A' ≤ char ∧ char ≤ 'F' then some (char.toNat - 'A'.toNat + 10)
  else none

/-- The number of four hexadecimal digits. -/
def readHex : Reader Nat
  | first :: second :: third :: fourth :: rest => do
    let first ← hexDigit first
    let second ← hexDigit second
    let third ← hexDigit third
    let fourth ← hexDigit fourth
    return (((first * 16 + second) * 16 + third) * 16 + fourth, rest)
  | _ => none

/-- The character after `\u`; one outside the basic plane takes a pair of surrogates. -/
def readUnicode : Reader Char := fun input => do
  let (code, rest) ← readHex input
  if 0xDC00 ≤ code ∧ code ≤ 0xDFFF then none
  else if code < 0xD800 ∨ 0xDBFF < code then return (Char.ofNat code, rest)
  else
    match rest with
    | '\\' :: 'u' :: rest => do
      let (low, rest) ← readHex rest
      if low < 0xDC00 ∨ 0xDFFF < low then none
      else return (Char.ofNat ((code - 0xD800) * 0x400 + (low - 0xDC00) + 0x10000), rest)
    | _ => none

def unescape : Char → Option Char
  | '"' => some '"'
  | '\\' => some '\\'
  | '/' => some '/'
  | 'b' => some '\x08'
  | 'f' => some '\x0c'
  | 'n' => some '\n'
  | 'r' => some '\r'
  | 't' => some '\t'
  | _ => none

/-- The characters of a string up to its closing quote; control characters have to be escaped. -/
def readText : Nat → Reader (List Char)
  | 0, _ => none
  | _ + 1, '"' :: rest => some ([], rest)
  | fuel + 1, '\\' :: 'u' :: rest =>
    (readUnicode rest).bind fun char => (readText fuel char.2).map fun text => (char.1 :: text.1, text.2)
  | fuel + 1, '\\' :: escaped :: rest =>
    (unescape escaped).bind fun char => (readText fuel rest).map fun text => (char :: text.1, text.2)
  | fuel + 1, char :: rest =>
    if char.toNat < 32 then none else (readText fuel rest).map fun text => (char :: text.1, text.2)
  | _ + 1, [] => none

def dropSign : List Char → List Char
  | '+' :: rest => rest
  | '-' :: rest => rest
  | rest => rest

def isExponent : List Char → Bool
  | [] => true
  | char :: rest => (char = 'e' || char = 'E') && !(dropSign rest).isEmpty && (dropSign rest).all Char.isDigit

def isFraction : List Char → Bool
  | '.' :: rest => (rest.head?.any Char.isDigit) && isExponent (rest.dropWhile Char.isDigit)
  | rest => isExponent rest

/-- No digit follows a zero in front. -/
def isUnsigned : List Char → Bool
  | '0' :: rest => isFraction rest
  | char :: rest => char.isDigit && isFraction (rest.dropWhile Char.isDigit)
  | [] => false

def isNumber : List Char → Bool
  | '-' :: rest => isUnsigned rest
  | text => isUnsigned text

def readNumber : Reader Json := fun input =>
  if isNumber (input.takeWhile isNumberChar) then
    some (.number (String.ofList (input.takeWhile isNumberChar)), input.dropWhile isNumberChar)
  else none

mutual

/-- One value from the front of a text, with so many levels left; `fuel` bounds the number of its parts. -/
def readValue : Nat → Nat → Reader Json
  | 0, _, _ => none
  | fuel + 1, levels, input =>
    match skipBlanks input with
    | 'n' :: 'u' :: 'l' :: 'l' :: rest => some (.null, rest)
    | 't' :: 'r' :: 'u' :: 'e' :: rest => some (.bool true, rest)
    | 'f' :: 'a' :: 'l' :: 's' :: 'e' :: rest => some (.bool false, rest)
    | '"' :: rest => (readText fuel rest).map fun text => (.string (String.ofList text.1), text.2)
    | '[' :: rest =>
      match levels with
      | 0 => none
      | levels + 1 =>
        match token ']' rest with
        | some rest => some (.array [], rest)
        | none =>
          (readValue fuel levels rest).bind fun item => (readItems fuel levels item.2).map fun items =>
            (.array (item.1 :: items.1), items.2)
    | '\x7b' :: rest =>
      match levels with
      | 0 => none
      | levels + 1 =>
        match token '\x7d' rest with
        | some rest => some (.object [], rest)
        | none =>
          (readMember fuel levels rest).bind fun member => (readMembers fuel levels member.2).map fun members =>
            (.object (member.1 :: members.1), members.2)
    | input => readNumber input
termination_by structural fuel => fuel

/-- The items after the first. -/
def readItems : Nat → Nat → Reader (List Json)
  | 0, _, _ => none
  | fuel + 1, levels, input =>
    match token ']' input with
    | some rest => some ([], rest)
    | none =>
      (token ',' input).bind fun rest => (readValue fuel levels rest).bind fun item =>
        (readItems fuel levels item.2).map fun items => (item.1 :: items.1, items.2)

def readMember : Nat → Nat → Reader (String × Json)
  | 0, _, _ => none
  | fuel + 1, levels, input =>
    (token '"' input).bind fun rest => (readText fuel rest).bind fun name => (token ':' name.2).bind fun rest =>
      (readValue fuel levels rest).map fun value => ((String.ofList name.1, value.1), value.2)
termination_by structural fuel => fuel

/-- The members after the first. -/
def readMembers : Nat → Nat → Reader (List (String × Json))
  | 0, _, _ => none
  | fuel + 1, levels, input =>
    match token '\x7d' input with
    | some rest => some ([], rest)
    | none =>
      (token ',' input).bind fun rest => (readMember fuel levels rest).bind fun member =>
        (readMembers fuel levels member.2).map fun members => (member.1 :: members.1, members.2)
termination_by structural fuel => fuel

end

/-- The levels that the recursion limit of 128 leaves. -/
def levelLimit : Nat := 127

/-- The value that a whole text is. -/
def read (text : String) : Option Json :=
  (readValue text.toList.length levelLimit text.toList).bind fun value =>
    if skipBlanks value.2 = [] then some value.1 else none

/-! ## Values that can be read -/

mutual

/-- So many levels are enough for the value, and every number in it has the text of a number. -/
def fits : Json → Nat → Bool
  | .null, _ => true
  | .bool _, _ => true
  | .string _, _ => true
  | .number text, _ => isNumber text.toList
  | .array _, 0 => false
  | .object _, 0 => false
  | .array items, levels + 1 => fitsItems items levels
  | .object members, levels + 1 => fitsMembers members levels

def fitsItems : List Json → Nat → Bool
  | [], _ => true
  | item :: items, levels => fits item levels && fitsItems items levels

def fitsMembers : List (String × Json) → Nat → Bool
  | [], _ => true
  | (_, value) :: members, levels => fits value levels && fitsMembers members levels

end


@[simp] theorem fits_string (text : String) (levels : Nat) : fits (.string text) levels = true := rfl

@[simp] theorem fitsMembers_nil (levels : Nat) : fitsMembers [] levels = true := rfl

@[simp] theorem fitsMembers_cons (member : String × Json) (members : List (String × Json)) (levels : Nat) :
    fitsMembers (member :: members) levels = (fits member.2 levels && fitsMembers members levels) := rfl

@[simp] theorem fitsMembers_append (first second : List (String × Json)) (levels : Nat) :
    fitsMembers (first ++ second) levels = (fitsMembers first levels && fitsMembers second levels) := by
  induction first with
  | nil => rfl
  | cons member first inductionHypothesis => simp [inductionHypothesis, Bool.and_assoc]

/-! ## Numbers -/

theorem dropSign_all {text : List Char} (all : (dropSign text).all isNumberChar = true) :
    text.all isNumberChar = true := by
  unfold dropSign at all
  split at all
  · simpa [isNumberChar] using all
  · simpa [isNumberChar] using all
  · exact all

theorem digits_all {text : List Char} (all : text.all Char.isDigit = true) : text.all isNumberChar = true :=
  List.all_eq_true.mpr fun char isIn => by simp [isNumberChar, List.all_eq_true.mp all char isIn]

/-- Digits, and what may follow them. -/
theorem digits_dropWhile_all {text : List Char} (all : (text.dropWhile Char.isDigit).all isNumberChar = true) :
    text.all isNumberChar = true := by
  rw [← List.takeWhile_append_dropWhile (p := Char.isDigit) (l := text), List.all_append, all, Bool.and_true]
  exact digits_all List.all_takeWhile

theorem isExponent_all {text : List Char} (isText : isExponent text = true) : text.all isNumberChar = true := by
  cases text with
  | nil => rfl
  | cons char rest =>
    simp only [isExponent, Bool.and_eq_true, Bool.or_eq_true, decide_eq_true_eq] at isText
    have rest := dropSign_all (digits_all isText.2)
    obtain ⟨⟨rfl | rfl, -⟩, -⟩ := isText <;> simpa [isNumberChar] using rest

theorem isFraction_all {text : List Char} (isText : isFraction text = true) : text.all isNumberChar = true := by
  unfold isFraction at isText
  split at isText
  · have rest := digits_dropWhile_all (isExponent_all (Bool.and_eq_true_iff.mp isText).2)
    simpa [isNumberChar] using rest
  · exact isExponent_all isText

/-- A number without a sign begins with a digit. -/
theorem isUnsigned_all {text : List Char} (isText : isUnsigned text = true) :
    text.all isNumberChar = true ∧ ∃ char rest, text = char :: rest ∧ char.isDigit = true := by
  unfold isUnsigned at isText
  split at isText
  · rename_i rest
    exact ⟨by simpa [isNumberChar] using isFraction_all isText, '0', rest, rfl, rfl⟩
  · rename_i char rest _
    obtain ⟨isDigit, isRest⟩ := Bool.and_eq_true_iff.mp isText
    have all := digits_dropWhile_all (isFraction_all isRest)
    exact ⟨by simpa [isNumberChar, isDigit] using all, char, rest, rfl, isDigit⟩
  · cases isText

def startsNumber (char : Char) : Bool := char.isDigit || char = '-'

theorem isNumber_all {text : List Char} (isText : isNumber text = true) :
    text.all isNumberChar = true ∧ ∃ char rest, text = char :: rest ∧ startsNumber char = true := by
  unfold isNumber at isText
  split at isText
  · rename_i rest
    exact ⟨by simpa [isNumberChar] using (isUnsigned_all isText).1, '-', rest, rfl, rfl⟩
  · obtain ⟨all, char, rest, same, isDigit⟩ := isUnsigned_all isText
    exact ⟨all, char, rest, same, by simp [startsNumber, isDigit]⟩

theorem readNumber_append {text rest : List Char} (isText : isNumber text = true) (stops : Stops rest) :
    readNumber (text ++ rest) = some (.number (String.ofList text), rest) := by
  have all : ∀ char ∈ text, isNumberChar char = true := List.all_eq_true.mp (isNumber_all isText).1
  have taken : (text ++ rest).takeWhile isNumberChar = text := by
    rw [List.takeWhile_append_of_pos all]
    cases rest with
    | nil => simp
    | cons next _ => rw [List.takeWhile_cons_of_neg (by simp [stops next rfl]), List.append_nil]
  have dropped : (text ++ rest).dropWhile isNumberChar = rest := by
    rw [List.dropWhile_append_of_pos all]
    cases rest with
    | nil => rfl
    | cons next _ => rw [List.dropWhile_cons_of_neg (by simp [stops next rfl])]
  simp [readNumber, taken, dropped, isText]

/-! ## Texts -/

theorem hexDigit_digitChar : ∀ number < 16, hexDigit (Nat.digitChar number) = some number := by decide

/-- A character that needs no escape stands for itself. -/
theorem readText_plain (fuel : Nat) {char : Char} (notQuote : char ≠ '"') (notBackslash : char ≠ '\\')
    (notControl : ¬char.toNat < 32) (rest : List Char) :
    readText (fuel + 1) (char :: rest) = (readText fuel rest).map fun text => (char :: text.1, text.2) := by
  rw [readText.eq_def]
  split <;> simp_all

theorem readText_escapeChar (fuel : Nat) (char : Char) (rest : List Char) :
    readText (fuel + 1) (escapeChar char ++ rest) =
      (readText fuel rest).map fun text => (char :: text.1, text.2) := by
  unfold escapeChar
  split_ifs with quote backslash newline carriage tab backspace feed control
  all_goals try subst char
  all_goals try rfl
  · -- a control character, through its two hexadecimal digits
    have high := hexDigit_digitChar (char.toNat / 16) (by omega)
    have low := hexDigit_digitChar (char.toNat % 16) (by omega)
    have zero : hexDigit '0' = some 0 := rfl
    have code : (char.toNat / 16) * 16 + char.toNat % 16 = char.toNat := Nat.div_add_mod' ..
    have isChar : readUnicode ('0' :: '0' :: Nat.digitChar (char.toNat / 16) ::
        Nat.digitChar (char.toNat % 16) :: rest) = some (char, rest) := by
      have small : char.toNat < 0xD800 := by omega
      have notLow : ¬0xDC00 ≤ char.toNat := by omega
      simp [readUnicode, readHex, high, low, zero, code, small, notLow, Char.ofNat_toNat]
    simp only [List.cons_append, List.nil_append, readText, isChar, Option.bind_some]
  · exact readText_plain fuel quote backslash control rest

theorem readText_writeChars : ∀ (text : List Char) (fuel : Nat) (rest : List Char),
    (writeChars text).length ≤ fuel → readText fuel (writeChars text ++ rest) = some (text, rest)
  | [], fuel + 1, rest, _ => rfl
  | char :: text, fuel, rest, enough => by
    have split : writeChars (char :: text) = escapeChar char ++ writeChars text := by
      simp [writeChars]
    rw [split, List.length_append] at enough
    have some_char : 0 < (escapeChar char).length := by
      unfold escapeChar
      split_ifs <;> simp
    obtain ⟨fuel, rfl⟩ : ∃ less, fuel = less + 1 := ⟨fuel - 1, by omega⟩
    rw [split, List.append_assoc, readText_escapeChar, readText_writeChars text fuel rest (by omega)]
    rfl

/-! ## Reading back what was written -/

theorem token_self {char : Char} (notBlank : isBlank char = false) (rest : List Char) :
    token char (char :: rest) = some rest := by
  simp [token, skipBlanks, notBlank]

theorem token_other {char next : Char} (notBlank : isBlank next = false) (different : next ≠ char) (rest : List Char) :
    token char (next :: rest) = none := by
  simp [token, skipBlanks, notBlank, different]

/-- No value begins like a closing bracket. -/
theorem token_of_readValue {fuel levels : Nat} {input : List Char} {item : Json × List Char}
    (reads : readValue fuel levels input = some item) : token ']' input = none := by
  cases fuel with
  | zero => cases reads
  | succ fuel =>
    unfold token
    split
    · rename_i next rest isNext
      split
      · rename_i same
        subst same
        simp [readValue, isNext, readNumber, isNumberChar, isNumber, isUnsigned] at reads
      · rfl
    · rfl

theorem token_of_readMember {fuel levels : Nat} {input : List Char} {member : (String × Json) × List Char}
    (reads : readMember fuel levels input = some member) : token '\x7d' input = none := by
  cases fuel with
  | zero => cases reads
  | succ fuel =>
    obtain ⟨rest, isQuote, -⟩ := Option.bind_eq_some_iff.mp reads
    unfold token at isQuote ⊢
    split at isQuote
    · rename_i next _ _
      have isQuote : next = '"' := (Option.ite_none_right_eq_some.mp isQuote).1
      simp [isQuote]
    · cases isQuote

theorem readValue_array {fuel levels : Nat} {input : List Char} {item : Json × List Char}
    (reads : readValue fuel levels input = some item) :
    readValue (fuel + 1) (levels + 1) ('[' :: input) =
      (readItems fuel levels item.2).map fun items => (.array (item.1 :: items.1), items.2) := by
  have bracket : skipBlanks ('[' :: input) = '[' :: input := rfl
  simp only [readValue, bracket, token_of_readValue reads, reads, Option.bind_some]

theorem readValue_object {fuel levels : Nat} {input : List Char} {member : (String × Json) × List Char}
    (reads : readMember fuel levels input = some member) :
    readValue (fuel + 1) (levels + 1) ('\x7b' :: input) =
      (readMembers fuel levels member.2).map fun members => (.object (member.1 :: members.1), members.2) := by
  have brace : skipBlanks ('\x7b' :: input) = '\x7b' :: input := rfl
  simp only [readValue, brace, token_of_readMember reads, reads, Option.bind_some]

/-- A number begins like nothing else. -/
theorem readValue_number (fuel levels : Nat) {char : Char} (starts : startsNumber char = true) (rest : List Char) :
    readValue (fuel + 1) levels (char :: rest) = readNumber (char :: rest) := by
  have notBlank : isBlank char = false := by
    simp only [startsNumber, Bool.or_eq_true, decide_eq_true_eq] at starts
    unfold isBlank
    by_contra blank
    simp only [Bool.not_eq_false, Bool.or_eq_true, decide_eq_true_eq] at blank
    rcases blank with ((rfl | rfl) | rfl) | rfl <;> revert starts <;> decide
  have same : skipBlanks (char :: rest) = char :: rest := by
    simp [skipBlanks, notBlank]
  unfold readValue
  rw [same]
  split <;> simp_all [startsNumber]

mutual

theorem readValue_write : ∀ (value : Json) (fuel levels : Nat) (rest : List Char), fits value levels = true →
    value.write.length ≤ fuel → Stops rest → readValue fuel levels (value.write ++ rest) = some (value, rest)
  | .null, fuel + 1, levels, rest, _, _, _ => rfl
  | .bool true, fuel + 1, levels, rest, _, _, _ => rfl
  | .bool false, fuel + 1, levels, rest, _, _, _ => rfl
  | .array [], fuel + 1, levels + 1, rest, _, _, _ => rfl
  | .object [], fuel + 1, levels + 1, rest, _, _, _ => rfl
  | .string text, fuel + 1, levels, rest, _, enough, _ => by
    change (readText fuel (writeChars text.toList ++ rest)).map _ = _
    rw [readText_writeChars _ _ _ (Nat.le_of_succ_le_succ enough)]
    simp
  | .number text, fuel, levels, rest, isNumber, enough, stops => by
    obtain ⟨-, char, tail, isText, starts⟩ := isNumber_all isNumber
    have length : text.toList.length ≤ fuel := enough
    obtain ⟨fuel, rfl⟩ : ∃ less, fuel = less + 1 := ⟨fuel - 1, by rw [isText, List.length_cons] at length; omega⟩
    have reads := readNumber_append isNumber stops
    rw [isText, List.cons_append] at reads
    simp only [write, isText, List.cons_append]
    rw [readValue_number fuel levels starts, reads, ← isText, String.ofList_toList]
  | .array (item :: items), fuel + 1, levels + 1, rest, itFits, enough, _ => by
    obtain ⟨itemOk, itemsOk⟩ := Bool.and_eq_true_iff.mp itFits
    have length : (write item).length + (writeItems items).length ≤ fuel := by
      simpa [write] using enough
    have first := readValue_write item fuel levels _ itemOk (by omega) (stops_writeItems items rest)
    have others := readItems_writeItems items fuel levels rest itemsOk (by omega)
    simp only [write, List.cons_append, List.append_assoc]
    rw [readValue_array first, others]
    rfl
  | .object ((name, value) :: members), fuel + 1, levels + 1, rest, itFits, enough, _ => by
    obtain ⟨valueOk, membersOk⟩ := Bool.and_eq_true_iff.mp itFits
    have first := readMember_write name value members fuel levels rest valueOk (by simp [write] at enough ⊢; omega)
    have others := readMembers_writeMembers members fuel levels rest membersOk (by simp [write] at enough; omega)
    simp only [write, List.cons_append, List.append_assoc] at first ⊢
    rw [readValue_object first, others]
    rfl

theorem readItems_writeItems : ∀ (items : List Json) (fuel levels : Nat) (rest : List Char),
    fitsItems items levels = true → (writeItems items).length ≤ fuel →
    readItems fuel levels (writeItems items ++ rest) = some (items, rest)
  | [], fuel + 1, levels, rest, _, _ => rfl
  | item :: items, fuel + 1, levels, rest, itFits, enough => by
    obtain ⟨itemOk, itemsOk⟩ := Bool.and_eq_true_iff.mp itFits
    have length : (write item).length + (writeItems items).length ≤ fuel := by
      simpa [writeItems] using enough
    have first := readValue_write item fuel levels _ itemOk (by omega) (stops_writeItems items rest)
    have others := readItems_writeItems items fuel levels rest itemsOk (by omega)
    have notClosed : ∀ rest, token ']' (',' :: rest) = none := token_other rfl (by decide)
    have comma : ∀ rest, token ',' (',' :: rest) = some rest := token_self rfl
    simp only [writeItems, List.cons_append, List.append_assoc, readItems, notClosed, comma, first,
      Option.bind_some, others]
    rfl

theorem readMember_write : ∀ (name : String) (value : Json) (members : List (String × Json)) (fuel levels : Nat)
    (rest : List Char), fits value levels = true →
    (writeString name).length + 1 + value.write.length ≤ fuel →
    readMember fuel levels (writeString name ++ ':' :: value.write ++ writeMembers members ++ rest) =
      some ((name, value), writeMembers members ++ rest)
  | _, _, _, 0, _, _, _, enough => by omega
  | name, value, members, fuel + 1, levels, rest, itFits, enough => by
    have length : (writeChars name.toList).length + 1 + value.write.length ≤ fuel := by
      simp [writeString] at enough
      omega
    have first := readValue_write value fuel levels _ itFits (by omega) (stops_writeMembers members rest)
    have isName := fun rest => readText_writeChars name.toList fuel rest (by omega)
    have quote : ∀ rest, token '"' ('"' :: rest) = some rest := token_self rfl
    have colon : ∀ rest, token ':' (':' :: rest) = some rest := token_self rfl
    simp only [writeString, List.cons_append, List.append_assoc, readMember, quote, isName, colon, first,
      Option.bind_some, Option.map_some, String.ofList_toList]

theorem readMembers_writeMembers : ∀ (members : List (String × Json)) (fuel levels : Nat) (rest : List Char),
    fitsMembers members levels = true → (writeMembers members).length ≤ fuel →
    readMembers fuel levels (writeMembers members ++ rest) = some (members, rest)
  | [], fuel + 1, levels, rest, _, _ => rfl
  | (name, value) :: members, fuel + 1, levels, rest, itFits, enough => by
    obtain ⟨valueOk, membersOk⟩ := Bool.and_eq_true_iff.mp itFits
    have first := readMember_write name value members fuel levels rest valueOk (by simp [writeMembers] at enough; omega)
    have others := readMembers_writeMembers members fuel levels rest membersOk (by simp [writeMembers] at enough; omega)
    have notClosed : ∀ rest, token '\x7d' (',' :: rest) = none := token_other rfl (by decide)
    have comma : ∀ rest, token ',' (',' :: rest) = some rest := token_self rfl
    simp only [writeMembers, List.cons_append, List.append_assoc] at first ⊢
    simp only [readMembers, notClosed, comma, first, Option.bind_some, others]
    rfl

end

/-- Every value that fits is read back from its text. -/
theorem read_toString {value : Json} (itFits : fits value levelLimit = true) : read value.toString = some value := by
  have reads := readValue_write value value.write.length levelLimit [] itFits (Nat.le_refl _) stops_nil
  rw [List.append_nil] at reads
  have chars : value.toString.toList = value.write := String.toList_ofList
  rw [read, chars, reads]
  rfl

/-! ## What is read -/

theorem readNumber_fits {input rest : List Char} {value : Json} (reads : readNumber input = some (value, rest))
    (levels : Nat) : fits value levels = true := by
  simp only [readNumber, Option.ite_none_right_eq_some, Option.some.injEq, Prod.mk.injEq] at reads
  obtain ⟨isText, rfl, -⟩ := reads
  simpa [fits] using isText

/-- What the readers give fits the levels that were left. -/
structure ReadsFit (fuel : Nat) : Prop where
  value : ∀ {levels input rest value}, readValue fuel levels input = some (value, rest) → fits value levels = true
  items : ∀ {levels input rest items}, readItems fuel levels input = some (items, rest) → fitsItems items levels = true
  member : ∀ {levels input rest name value},
    readMember fuel levels input = some ((name, value), rest) → fits value levels = true
  members : ∀ {levels input rest members},
    readMembers fuel levels input = some (members, rest) → fitsMembers members levels = true

theorem readsFit (fuel : Nat) : ReadsFit fuel := by
  induction fuel with
  | zero => exact ⟨nofun, nofun, nofun, nofun⟩
  | succ fuel inductionHypothesis =>
    constructor
    case value =>
      intro levels input rest value reads
      unfold readValue at reads
      split at reads <;> try (cases reads; rfl)
      · obtain ⟨text, -, same⟩ := Option.map_eq_some_iff.mp reads
        cases same
        rfl
      · split at reads
        · cases reads
        · split at reads
          · cases reads
            rfl
          · obtain ⟨item, isItem, isRest⟩ := Option.bind_eq_some_iff.mp reads
            obtain ⟨items, areItems, same⟩ := Option.map_eq_some_iff.mp isRest
            cases same
            exact Bool.and_eq_true_iff.mpr ⟨inductionHypothesis.value isItem, inductionHypothesis.items areItems⟩
      · split at reads
        · cases reads
        · split at reads
          · cases reads
            rfl
          · obtain ⟨member, isMember, isRest⟩ := Option.bind_eq_some_iff.mp reads
            obtain ⟨members, areMembers, same⟩ := Option.map_eq_some_iff.mp isRest
            cases same
            exact Bool.and_eq_true_iff.mpr ⟨inductionHypothesis.member isMember, inductionHypothesis.members areMembers⟩
      · exact readNumber_fits reads levels
    case items =>
      intro levels input rest items reads
      unfold readItems at reads
      split at reads
      · cases reads
        rfl
      · obtain ⟨_, -, isRest⟩ := Option.bind_eq_some_iff.mp reads
        obtain ⟨item, isItem, isRest⟩ := Option.bind_eq_some_iff.mp isRest
        obtain ⟨items, areItems, same⟩ := Option.map_eq_some_iff.mp isRest
        cases same
        exact Bool.and_eq_true_iff.mpr ⟨inductionHypothesis.value isItem, inductionHypothesis.items areItems⟩
    case member =>
      intro levels input rest name value reads
      obtain ⟨_, -, isRest⟩ := Option.bind_eq_some_iff.mp reads
      obtain ⟨_, -, isRest⟩ := Option.bind_eq_some_iff.mp isRest
      obtain ⟨_, -, isRest⟩ := Option.bind_eq_some_iff.mp isRest
      obtain ⟨read, isRead, same⟩ := Option.map_eq_some_iff.mp isRest
      cases same
      exact inductionHypothesis.value isRead
    case members =>
      intro levels input rest members reads
      unfold readMembers at reads
      split at reads
      · cases reads
        rfl
      · obtain ⟨_, -, isRest⟩ := Option.bind_eq_some_iff.mp reads
        obtain ⟨member, isMember, isRest⟩ := Option.bind_eq_some_iff.mp isRest
        obtain ⟨members, areMembers, same⟩ := Option.map_eq_some_iff.mp isRest
        cases same
        exact Bool.and_eq_true_iff.mpr ⟨inductionHypothesis.member isMember, inductionHypothesis.members areMembers⟩

/-- Every value that is read fits. -/
theorem fits_of_read {text : String} {value : Json} (isRead : read text = some value) :
    fits value levelLimit = true := by
  obtain ⟨found, reads, isValue⟩ := Option.bind_eq_some_iff.mp isRead
  obtain ⟨-, same⟩ := Option.ite_none_right_eq_some.mp isValue
  cases same
  exact (readsFit _).value reads

/-! ## Values as they are kept -/

mutual

/-- The value that `serde_json` makes of a text: members by name, and the last of a name alone. -/
def normalize : Json → Json
  | .array items => .array (normalizeItems items)
  | .object members => .object (normalizeMembers [] members)
  | .null => .null
  | .bool value => .bool value
  | .number text => .number text
  | .string text => .string text

def normalizeItems : List Json → List Json
  | [] => []
  | item :: items => normalize item :: normalizeItems items

/-- The members that are left, put into the map so far. -/
def normalizeMembers (map : List (String × Json)) : List (String × Json) → List (String × Json)
  | [] => map
  | (name, value) :: members => normalizeMembers (insertMember name (normalize value) map) members

end

/-- A value as `serde_json` keeps it, for which so many levels are enough. -/
structure Kept (value : Json) (levels : Nat) : Prop where
  fits : value.fits levels = true
  same : value.normalize = value

/-- A map with its names in order, and values as they are kept. -/
structure KeptMembers (map : List (String × Json)) : Prop where
  sorted : map.Pairwise fun first second => first.1 < second.1
  values : ∀ member ∈ map, member.2.normalize = member.2

theorem keptMembers_nil : KeptMembers [] := ⟨.nil, by simp⟩

theorem mem_insertMember {name : String} {value : Json} {map : List (String × Json)} {member : String × Json}
    (isMember : member ∈ insertMember name value map) : member = (name, value) ∨ member ∈ map := by
  induction map with
  | nil => exact .inl (List.mem_singleton.mp isMember)
  | cons head rest inductionHypothesis =>
    unfold insertMember at isMember
    split at isMember
    · exact List.mem_cons.mp isMember
    · split at isMember
      · rcases List.mem_cons.mp isMember with same | later
        · exact .inl same
        · exact .inr (List.mem_cons_of_mem _ later)
      · rcases List.mem_cons.mp isMember with same | later
        · exact .inr (same ▸ List.mem_cons_self)
        · exact (inductionHypothesis later).imp_right (List.mem_cons_of_mem _)

theorem KeptMembers.insertMember {map : List (String × Json)} (kept : KeptMembers map) (name : String) {value : Json}
    (same : value.normalize = value) : KeptMembers (insertMember name value map) where
  sorted := by
    have sorted := kept.sorted
    clear kept
    induction map with
    | nil => simp [Json.insertMember]
    | cons head rest inductionHypothesis =>
      obtain ⟨first, sorted⟩ := List.pairwise_cons.mp sorted
      unfold Json.insertMember
      split
      · rename_i before
        refine List.pairwise_cons.mpr ⟨fun member isMember => ?_, List.pairwise_cons.mpr ⟨first, sorted⟩⟩
        rcases List.mem_cons.mp isMember with rfl | later
        · exact before
        · exact before.trans (first member later)
      · split
        · rename_i equal
          exact List.pairwise_cons.mpr ⟨fun member later => equal ▸ first member later, sorted⟩
        · rename_i notBefore different
          refine List.pairwise_cons.mpr ⟨fun member isMember => ?_, inductionHypothesis sorted⟩
          rcases mem_insertMember isMember with rfl | later
          · exact lt_of_le_of_ne (not_lt.mp notBefore) (Ne.symm different)
          · exact first member later
  values := fun member isMember => by
    rcases mem_insertMember isMember with rfl | earlier
    · exact same
    · exact kept.values member earlier

/-- A name after all others goes to the end. -/
theorem insertMember_last {map : List (String × Json)} {name : String} {value : Json}
    (last : ∀ member ∈ map, member.1 < name) : insertMember name value map = map ++ [(name, value)] := by
  induction map with
  | nil => rfl
  | cons head rest inductionHypothesis =>
    have before : head.1 < name := last head List.mem_cons_self
    unfold insertMember
    rw [if_neg (lt_asymm before), if_neg (ne_of_gt before),
      inductionHypothesis fun member later => last member (List.mem_cons_of_mem _ later)]
    rfl

/-- A map that is kept stays as it is. -/
theorem normalizeMembers_of_kept {map members : List (String × Json)} (kept : KeptMembers (map ++ members)) :
    normalizeMembers map members = map ++ members := by
  induction members generalizing map with
  | nil => simp [normalizeMembers]
  | cons member rest inductionHypothesis =>
    obtain ⟨name, value⟩ := member
    have last : ∀ earlier ∈ map, earlier.1 < name := fun earlier isMember =>
      (List.pairwise_append.mp kept.sorted).2.2 earlier isMember (name, value) List.mem_cons_self
    have same : value.normalize = value := kept.values (name, value) (by simp)
    rw [normalizeMembers, same, insertMember_last last, inductionHypothesis (by simpa using kept)]
    simp

theorem normalizeMembers_nil_of_kept {members : List (String × Json)} (kept : KeptMembers members) :
    normalizeMembers [] members = members :=
  normalizeMembers_of_kept kept

mutual

/-- What has been made of a text once stays as it is. -/
theorem normalize_normalize : ∀ value : Json, (normalize value).normalize = normalize value
  | .null => rfl
  | .bool _ => rfl
  | .number _ => rfl
  | .string _ => rfl
  | .array items => congrArg Json.array (normalizeItems_normalizeItems items)
  | .object members =>
    congrArg Json.object (normalizeMembers_nil_of_kept (keptMembers_normalizeMembers members keptMembers_nil))

theorem normalizeItems_normalizeItems : ∀ items : List Json,
    normalizeItems (normalizeItems items) = normalizeItems items
  | [] => rfl
  | item :: items => congrArg₂ List.cons (normalize_normalize item) (normalizeItems_normalizeItems items)

theorem keptMembers_normalizeMembers : ∀ (members : List (String × Json)) {map : List (String × Json)},
    KeptMembers map → KeptMembers (normalizeMembers map members)
  | [], _, kept => kept
  | (name, value) :: members, _, kept =>
    keptMembers_normalizeMembers members (kept.insertMember name (normalize_normalize value))

end

theorem fitsMembers_iff {members : List (String × Json)} {levels : Nat} :
    fitsMembers members levels = true ↔ ∀ member ∈ members, fits member.2 levels = true := by
  induction members with
  | nil => simp
  | cons member members inductionHypothesis => simp [inductionHypothesis]

mutual

theorem fits_normalize : ∀ (value : Json) (levels : Nat),
    fits value levels = true → fits (normalize value) levels = true
  | .null, _, _ => rfl
  | .bool _, _, _ => rfl
  | .number _, _, itFits => itFits
  | .string _, _, _ => rfl
  | .array items, levels + 1, itFits => fitsItems_normalizeItems items levels itFits
  | .object members, levels + 1, itFits => fitsMembers_normalizeMembers members levels itFits rfl

theorem fitsItems_normalizeItems : ∀ (items : List Json) (levels : Nat),
    fitsItems items levels = true → fitsItems (normalizeItems items) levels = true
  | [], _, _ => rfl
  | item :: items, levels, itFits => by
    obtain ⟨itemOk, itemsOk⟩ := Bool.and_eq_true_iff.mp itFits
    exact Bool.and_eq_true_iff.mpr ⟨fits_normalize item levels itemOk, fitsItems_normalizeItems items levels itemsOk⟩

theorem fitsMembers_normalizeMembers : ∀ (members : List (String × Json)) (levels : Nat) {map : List (String × Json)},
    fitsMembers members levels = true → fitsMembers map levels = true →
    fitsMembers (normalizeMembers map members) levels = true
  | [], _, _, _, mapOk => mapOk
  | (name, value) :: members, levels, map, itFits, mapOk => by
    obtain ⟨valueOk, membersOk⟩ := Bool.and_eq_true_iff.mp itFits
    refine fitsMembers_normalizeMembers members levels membersOk (fitsMembers_iff.mpr fun member isMember => ?_)
    rcases mem_insertMember isMember with rfl | earlier
    · exact fits_normalize value levels valueOk
    · exact fitsMembers_iff.mp mapOk member earlier

end

/-- What is made of a text is a value as it is kept. -/
theorem kept_normalize {value : Json} {levels : Nat} (itFits : fits value levels = true) :
    value.normalize.Kept levels :=
  ⟨fits_normalize value levels itFits, normalize_normalize value⟩

end Json

end SpectraGQL.Protocol
