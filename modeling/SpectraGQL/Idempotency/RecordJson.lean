import SpectraGQL.Idempotency.Redis

/-! # The text of a record

Records travel to Redis as the JSON text that `serde_json` derives for them: an object
tagged by its `state`, the fields in the order of their declaration, no blanks.
`RecordJson.codec` writes that text and reads it back; `roundTrips_codec` says that
nothing is lost on the way.
-/

namespace SpectraGQL.Idempotency.RecordJson

open SpectraGQL.Core

/-! ## Writing -/

def escapeChar (char : Char) : List Char :=
  if char = '"' then ['\\', '"']
  else if char = '\\' then ['\\', '\\']
  else if char = '\n' then ['\\', 'n']
  else if char = '\r' then ['\\', 'r']
  else if char = '\t' then ['\\', 't']
  else if char = '\x08' then ['\\', 'b']
  else if char = '\x0c' then ['\\', 'f']
  else if char.toNat < 32 then
    ['\\', 'u', '0', '0', Nat.digitChar (char.toNat / 16), Nat.digitChar (char.toNat % 16)]
  else [char]

/-- The characters of a string after its opening quote. -/
def writeChars (text : List Char) : List Char := text.flatMap escapeChar ++ ['"']

def writeNat (number : Nat) : List Char := Nat.toDigits 10 number

def writePair (pair : String × String) : List Char :=
  "[\"".toList ++ writeChars pair.1.toList ++ ",\"".toList ++ writeChars pair.2.toList ++ [']']

/-- The elements of an array after its opening bracket. -/
def writePairs : List (String × String) → List Char
  | [] => [']']
  | [last] => writePair last ++ [']']
  | pair :: rest => writePair pair ++ [','] ++ writePairs rest

def writeHlc (hlc : HlcTimestamp) : List Char :=
  "\x7b\"physical\":".toList ++ writeNat hlc.physical.toNat ++
    ",\"logical\":".toList ++ writeNat hlc.logical.toNat ++ ['}']

def writeRecord : IdempotencyRecord → List Char
  | .inProgress hlc startedAtSecs =>
    "\x7b\"state\":\"in_progress\",\"hlc\":".toList ++ writeHlc hlc ++
      ",\"started_at_secs\":".toList ++ writeNat startedAtSecs ++ ['}']
  | .completed hlc statusCode headers body completedAtSecs =>
    "\x7b\"state\":\"completed\",\"hlc\":".toList ++ writeHlc hlc ++
      ",\"status_code\":".toList ++ writeNat statusCode.toNat ++
      ",\"headers\":[".toList ++ writePairs headers ++
      ",\"body\":\"".toList ++ writeChars body.toList ++
      ",\"completed_at_secs\":".toList ++ writeNat completedAtSecs ++ ['}']

/-! ## Reading -/

/-- What is read from the front of a text, and what is left of the text. -/
abbrev Reader (α : Type) := List Char → Option (α × List Char)

def literal (expected : List Char) (input : List Char) : Option (List Char) :=
  if expected.isPrefixOf input then some (input.drop expected.length) else none

def hexValue (char : Char) : Nat :=
  if char.isDigit then char.toNat - '0'.toNat else char.toNat - 'a'.toNat + 10

def unescapeChar : Char → Char
  | 'n' => '\n'
  | 'r' => '\r'
  | 't' => '\t'
  | 'b' => '\x08'
  | 'f' => '\x0c'
  | char => char

def readChars : Reader (List Char)
  | '"' :: rest => some ([], rest)
  | '\\' :: 'u' :: _ :: _ :: high :: low :: rest =>
    (readChars rest).map fun read => (Char.ofNat (16 * hexValue high + hexValue low) :: read.1, read.2)
  | '\\' :: char :: rest => (readChars rest).map fun read => (unescapeChar char :: read.1, read.2)
  | char :: rest => (readChars rest).map fun read => (char :: read.1, read.2)
  | [] => none

def readNat : Reader Nat := fun input =>
  let digits := input.takeWhile Char.isDigit
  if digits = [] then none else some (Nat.ofDigitChars 10 digits 0, input.dropWhile Char.isDigit)

def readPair : Reader (String × String) := fun input => do
  let input ← literal "[\"".toList input
  let (name, input) ← readChars input
  let input ← literal ",\"".toList input
  let (value, input) ← readChars input
  let input ← literal [']'] input
  return ((String.ofList name, String.ofList value), input)

/-- The elements after the first; `fuel` bounds their number. -/
def readMorePairs : Nat → Reader (List (String × String))
  | 0, _ => none
  | fuel + 1, input =>
    match input with
    | ']' :: rest => some ([], rest)
    | ',' :: rest => do
      let (pair, rest) ← readPair rest
      let (pairs, rest) ← readMorePairs fuel rest
      return (pair :: pairs, rest)
    | _ => none

def readPairs : Reader (List (String × String)) := fun input =>
  match input with
  | ']' :: rest => some ([], rest)
  | _ => do
    let (pair, rest) ← readPair input
    let (pairs, rest) ← readMorePairs rest.length rest
    return (pair :: pairs, rest)

def readHlc : Reader HlcTimestamp := fun input => do
  let input ← literal "\x7b\"physical\":".toList input
  let (physical, input) ← readNat input
  let input ← literal ",\"logical\":".toList input
  let (logical, input) ← readNat input
  let input ← literal ['}'] input
  return (⟨.ofNat physical, .ofNat logical⟩, input)

def readInProgress (input : List Char) : Option IdempotencyRecord := do
  let input ← literal "\x7b\"state\":\"in_progress\",\"hlc\":".toList input
  let (hlc, input) ← readHlc input
  let input ← literal ",\"started_at_secs\":".toList input
  let (startedAtSecs, input) ← readNat input
  if input = ['}'] then some (.inProgress hlc startedAtSecs) else none

def readCompleted (input : List Char) : Option IdempotencyRecord := do
  let input ← literal "\x7b\"state\":\"completed\",\"hlc\":".toList input
  let (hlc, input) ← readHlc input
  let input ← literal ",\"status_code\":".toList input
  let (statusCode, input) ← readNat input
  let input ← literal ",\"headers\":[".toList input
  let (headers, input) ← readPairs input
  let input ← literal ",\"body\":\"".toList input
  let (body, input) ← readChars input
  let input ← literal ",\"completed_at_secs\":".toList input
  let (completedAtSecs, input) ← readNat input
  if input = ['}'] then
    some (.completed hlc (.ofNat statusCode) headers (String.ofList body) completedAtSecs)
  else none

def codec : RecordCodec where
  toString := fun record => some (String.ofList (writeRecord record))
  fromStr := fun text => readInProgress text.toList <|> readCompleted text.toList

/-! ## Reading back what was written -/

theorem literal_append (expected rest : List Char) : literal expected (expected ++ rest) = some rest := by
  simp [literal]

theorem hexValue_digitChar : ∀ number < 16, hexValue (Nat.digitChar number) = number := by decide

theorem readChars_escapeChar (char : Char) (rest : List Char) :
    readChars (escapeChar char ++ rest) =
      (readChars rest).map fun read => (char :: read.1, read.2) := by
  unfold escapeChar
  split_ifs with quote backslash newline carriage tab backspace feed control
  all_goals try subst char
  all_goals try rfl
  · -- a control character, through its two hexadecimal digits
    have high := hexValue_digitChar (char.toNat / 16) (by omega)
    have low := hexValue_digitChar (char.toNat % 16) (by omega)
    have value : Char.ofNat (16 * (char.toNat / 16) + char.toNat % 16) = char := by
      rw [Nat.div_add_mod, Char.ofNat_toNat]
    simp only [List.cons_append, List.nil_append, readChars, high, low, value]
  · rw [List.singleton_append, readChars.eq_def]
    split <;> simp_all

theorem readChars_writeChars (text rest : List Char) :
    readChars (writeChars text ++ rest) = some (text, rest) := by
  induction text with
  | nil => rfl
  | cons char text inductionHypothesis =>
    have split : writeChars (char :: text) ++ rest = escapeChar char ++ (writeChars text ++ rest) := by
      simp [writeChars]
    rw [split, readChars_escapeChar, inductionHypothesis]
    rfl

/-- The text after a number does not go on with a digit. -/
theorem readNat_writeNat (number : Nat) (next : List Char) (rest : List Char)
    (stops : next.head?.map Char.isDigit = some false) :
    readNat (writeNat number ++ (next ++ rest)) = some (number, next ++ rest) := by
  obtain ⟨char, isHead, notDigit⟩ := Option.map_eq_some_iff.mp stops
  obtain ⟨tail, rfl⟩ := List.head?_eq_some_iff.mp isHead
  have digits : ∀ char ∈ writeNat number, char.isDigit = true :=
    fun char member => Nat.isDigit_of_mem_toDigits (by decide) (by decide) member
  have taken : (writeNat number ++ (char :: tail ++ rest)).takeWhile Char.isDigit = writeNat number := by
    rw [List.takeWhile_append_of_pos digits, List.cons_append,
      List.takeWhile_cons_of_neg (by simp [notDigit]), List.append_nil]
  have dropped : (writeNat number ++ (char :: tail ++ rest)).dropWhile Char.isDigit =
      char :: tail ++ rest := by
    rw [List.dropWhile_append_of_pos digits, List.cons_append,
      List.dropWhile_cons_of_neg (by simp [notDigit])]
  have value : Nat.ofDigitChars 10 (writeNat number) 0 = number := Nat.ofDigitChars_ten_toDigits
  have nonempty : writeNat number ≠ [] := Nat.toDigits_ne_nil
  simp only [readNat, taken, dropped, value, if_neg nonempty]

theorem readPair_writePair (pair : String × String) (rest : List Char) :
    readPair (writePair pair ++ rest) = some (pair, rest) := by
  simp only [writePair, readPair, List.append_assoc, literal_append, readChars_writeChars,
    Option.bind_eq_bind, Option.bind_some, String.ofList_toList, Option.pure_def]

/-- The elements after the first, as `writePairs` writes them. -/
def writeMorePairs : List (String × String) → List Char
  | [] => [']']
  | pair :: rest => ',' :: writePairs (pair :: rest)

theorem writePairs_cons (pair : String × String) (rest : List (String × String)) :
    writePairs (pair :: rest) = writePair pair ++ writeMorePairs rest := by
  cases rest with
  | nil => rfl
  | cons second rest => simp [writePairs, writeMorePairs]

theorem readMorePairs_writeMorePairs (pairs : List (String × String)) (rest : List Char) {fuel : Nat}
    (enough : pairs.length < fuel) :
    readMorePairs fuel (writeMorePairs pairs ++ rest) = some (pairs, rest) := by
  induction pairs generalizing fuel with
  | nil =>
    cases fuel with
    | zero => exact absurd enough (Nat.not_lt_zero _)
    | succ fuel => rfl
  | cons pair pairs inductionHypothesis =>
    cases fuel with
    | zero => exact absurd enough (Nat.not_lt_zero _)
    | succ fuel =>
      have fewer : pairs.length < fuel := Nat.lt_of_succ_lt_succ enough
      rw [writeMorePairs, writePairs_cons]
      simp only [List.cons_append, List.append_assoc, readMorePairs, readPair_writePair,
        Option.bind_eq_bind, Option.bind_some, inductionHypothesis fewer, Option.pure_def]

theorem length_lt_writeMorePairs (pairs : List (String × String)) :
    pairs.length < (writeMorePairs pairs).length := by
  induction pairs with
  | nil => decide
  | cons pair pairs inductionHypothesis =>
    rw [writeMorePairs, writePairs_cons]
    simp only [List.length_cons, List.length_append]
    omega

theorem readPairs_writePairs (pairs : List (String × String)) (rest : List Char) :
    readPairs (writePairs pairs ++ rest) = some (pairs, rest) := by
  cases pairs with
  | nil => rfl
  | cons pair pairs =>
    have enough : pairs.length < (writeMorePairs pairs ++ rest).length := by
      have := length_lt_writeMorePairs pairs
      rw [List.length_append]
      omega
    have notEnd : ∀ tail, writePairs (pair :: pairs) ++ rest ≠ ']' :: tail := by
      intro tail same
      simp [writePairs_cons, writePair] at same
    rw [readPairs.eq_def]
    split
    · rename_i tail same
      exact absurd same (notEnd tail)
    · rw [writePairs_cons, List.append_assoc]
      simp only [readPair_writePair, Option.bind_eq_bind, Option.bind_some,
        readMorePairs_writeMorePairs pairs rest enough, Option.pure_def]

theorem readHlc_writeHlc (hlc : HlcTimestamp) (rest : List Char) :
    readHlc (writeHlc hlc ++ rest) = some (hlc, rest) := by
  have physical := fun tail => readNat_writeNat hlc.physical.toNat ",\"logical\":".toList tail
    (by decide)
  have logical := fun tail => readNat_writeNat hlc.logical.toNat ['}'] tail (by decide)
  unfold writeHlc readHlc
  simp only [List.append_assoc, literal_append, Option.bind_eq_bind, Option.bind_some,
    physical, logical, UInt64.ofNat_toNat, UInt32.ofNat_toNat, Option.pure_def]

theorem readInProgress_writeRecord (hlc : HlcTimestamp) (startedAtSecs : Nat) :
    readInProgress (writeRecord (.inProgress hlc startedAtSecs)) =
      some (.inProgress hlc startedAtSecs) := by
  have seconds := readNat_writeNat startedAtSecs ['}'] [] (by decide)
  rw [List.append_nil] at seconds
  unfold writeRecord readInProgress
  simp only [List.append_assoc, literal_append, Option.bind_eq_bind,
    Option.bind_some, readHlc_writeHlc, seconds, if_true]

theorem readCompleted_writeRecord (hlc : HlcTimestamp) (statusCode : UInt16)
    (headers : List (String × String)) (body : String) (completedAtSecs : Nat) :
    readCompleted (writeRecord (.completed hlc statusCode headers body completedAtSecs)) =
      some (.completed hlc statusCode headers body completedAtSecs) := by
  have status := fun tail => readNat_writeNat statusCode.toNat ",\"headers\":[".toList tail
    (by decide)
  have seconds := readNat_writeNat completedAtSecs ['}'] [] (by decide)
  rw [List.append_nil] at seconds
  unfold writeRecord readCompleted
  simp only [List.append_assoc, literal_append, Option.bind_eq_bind,
    Option.bind_some, readHlc_writeHlc, status, readPairs_writePairs, readChars_writeChars, seconds,
    if_true, UInt16.ofNat_toNat, String.ofList_toList]

/-- The text of a completed record does not begin like that of one in progress. -/
theorem readInProgress_completed (hlc : HlcTimestamp) (statusCode : UInt16)
    (headers : List (String × String)) (body : String) (completedAtSecs : Nat) :
    readInProgress (writeRecord (.completed hlc statusCode headers body completedAtSecs)) = none := by
  have differs : ∀ tail, literal "\x7b\"state\":\"in_progress\",\"hlc\":".toList
      ("\x7b\"state\":\"completed\",\"hlc\":".toList ++ tail) = none := by
    intro tail
    have chars : "\x7b\"state\":\"completed\",\"hlc\":".toList =
        "\x7b\"state\":\"".toList ++ 'c' :: "ompleted\",\"hlc\":".toList := by decide
    have expected : "\x7b\"state\":\"in_progress\",\"hlc\":".toList =
        "\x7b\"state\":\"".toList ++ 'i' :: "n_progress\",\"hlc\":".toList := by decide
    rw [chars, expected]
    simp [literal]
  unfold writeRecord readInProgress
  simp only [List.append_assoc, differs, Option.bind_eq_bind,
    Option.bind_none]

theorem roundTrips_codec : codec.RoundTrips := by
  intro record
  refine ⟨_, rfl, ?_⟩
  simp only [codec, String.toList_ofList]
  cases record with
  | inProgress hlc startedAtSecs => simp [readInProgress_writeRecord]
  | completed hlc statusCode headers body completedAtSecs =>
    simp [readInProgress_completed, readCompleted_writeRecord]

end SpectraGQL.Idempotency.RecordJson
