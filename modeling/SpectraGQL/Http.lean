import Mathlib.Tactic.Common
import Mathlib.Data.List.Basic
import Mathlib.Data.List.Induction

/-! # HTTP messages

Text, bytes, header maps, methods and the heads of messages as the `http` crate has
them.  A header map is the list of its name/value pairs in iteration order; names are
stored in lower case, and one name may occur several times.
-/

namespace SpectraGQL.Http

/-! ## Text and bytes -/

/-- `to_lowercase` on ASCII text, as names of headers, methods and operations are. -/
def toLowercase (text : String) : String := String.ofList (text.toList.map Char.toLower)

def eqIgnoreAsciiCase (left right : String) : Bool := toLowercase left == toLowercase right

/-- Lower case leaves what is no letter alone, and makes nothing else of it. -/
theorem toLower_eq_iff {mark : Char} (notAlpha : mark.isAlpha = false) (char : Char) :
    char.toLower = mark ↔ char = mark := by
  by_cases upper : char.val ≥ 'A'.val ∧ char.val ≤ 'Z'.val
  · have isUpper : char.isUpper = true := decide_eq_true upper
    have isAlpha : char.isAlpha = true := (Bool.or_eq_true _ _).mpr (.inl isUpper)
    have lowered : char.toLower.isAlpha = true := by
      have low := UInt32.le_iff_toNat_le.mp upper.1
      have high := UInt32.le_iff_toNat_le.mp upper.2
      have code : char.toLower.val = char.val + ('a'.val - 'A'.val) := by
        unfold Char.toLower
        rw [dif_pos upper]
      have lower : 'a'.val ≤ char.toLower.val ∧ char.toLower.val ≤ 'z'.val := by
        simp [code, UInt32.le_iff_toNat_le] at low high ⊢
        omega
      have isLower : char.toLower.isLower = true :=
        (Bool.and_eq_true _ _).mpr (lower.imp decide_eq_true decide_eq_true)
      exact (Bool.or_eq_true _ _).mpr (.inr isLower)
    constructor
    · rintro rfl
      rw [lowered] at notAlpha
      cases notAlpha
    · rintro rfl
      rw [isAlpha] at notAlpha
      cases notAlpha
  · unfold Char.toLower
    rw [dif_neg upper]

/-- A text without a mark that is no letter has none in lower case either. -/
theorem plain_toLowercase {mark : Char} (notAlpha : mark.isAlpha = false) {text : String}
    (plain : mark ∉ text.toList) : mark ∉ (toLowercase text).toList := by
  simp only [toLowercase, String.toList_ofList, List.mem_map, not_exists, not_and]
  intro char member
  rw [toLower_eq_iff notAlpha]
  exact fun isMark => plain (isMark ▸ member)

/-- The characters with the Unicode property `White_Space`. -/
def isWhitespace (char : Char) : Bool :=
  let code := char.toNat
  (9 ≤ code && code ≤ 13) || code == 0x20 || code == 0x85 || code == 0xa0 || code == 0x1680 ||
    (0x2000 ≤ code && code ≤ 0x200a) || code == 0x2028 || code == 0x2029 || code == 0x202f ||
    code == 0x205f || code == 0x3000

def trimStart (text : List Char) : List Char := text.dropWhile isWhitespace

/-- `str::trim`. -/
def trim (text : String) : String :=
  String.ofList (trimStart (trimStart text.toList).reverse).reverse

def startsWith (text start : String) : Bool := start.toList.isPrefixOf text.toList

/-- `str::split` at a character. -/
def splitOn (separator : Char) (text : String) : List String :=
  (text.toList.splitOn separator).map String.ofList

/-- A text splits in one way at the last of its separators. -/
theorem lastSeparator_inj {separator : Char} {front back left right : List Char}
    (plainLeft : separator ∉ left) (plainRight : separator ∉ right)
    (same : front ++ separator :: left = back ++ separator :: right) : front = back ∧ left = right := by
  cases List.append_eq_append_iff.mp same with
  | inl longer =>
    obtain ⟨between, isBack, rest⟩ := longer
    cases between with
    | nil => simp_all
    | cons char between =>
      simp only [List.cons_append, List.cons.injEq] at rest
      exact absurd (rest.2 ▸ List.mem_append_right _ List.mem_cons_self) plainLeft
  | inr shorter =>
    obtain ⟨between, isFront, rest⟩ := shorter
    cases between with
    | nil => simp_all
    | cons char between =>
      simp only [List.cons_append, List.cons.injEq] at rest
      exact absurd (rest.2 ▸ List.mem_append_right _ List.mem_cons_self) plainRight

/-- And in one way at the first. -/
theorem firstSeparator_inj {separator : Char} {front back left right : List Char}
    (plainFront : separator ∉ front) (plainBack : separator ∉ back)
    (same : front ++ separator :: left = back ++ separator :: right) : front = back ∧ left = right := by
  have turned : left.reverse ++ separator :: front.reverse = right.reverse ++ separator :: back.reverse := by
    simpa using congrArg List.reverse same
  have parts := lastSeparator_inj (by simpa using plainFront) (by simpa using plainBack) turned
  exact ⟨List.reverse_inj.mp parts.2, List.reverse_inj.mp parts.1⟩

abbrev Bytes := List UInt8

def asBytes (text : String) : Bytes := text.toByteArray.data.toList

/-- `str::from_utf8`. -/
def fromUtf8 (bytes : Bytes) : Option String := String.fromUTF8? ⟨bytes.toArray⟩

theorem asBytes_of_fromUtf8 {bytes : Bytes} {text : String} (valid : fromUtf8 bytes = some text) :
    asBytes text = bytes := by
  unfold fromUtf8 String.fromUTF8? at valid
  split at valid
  · cases valid
    simp [asBytes, String.fromUTF8]
  · cases valid

@[simp] theorem fromUtf8_asBytes (text : String) : fromUtf8 (asBytes text) = some text := by
  have valid : text.toByteArray.IsValidUTF8 := text.isValidUTF8
  simp [fromUtf8, asBytes, String.fromUTF8?, valid, String.fromUTF8]

theorem asBytes_inj {left right : String} : asBytes left = asBytes right ↔ left = right := by
  constructor
  · intro same
    have read := congrArg fromUtf8 same
    simpa using read
  · rintro rfl
    rfl

/-- The number of continuation bytes that a lead byte asks for, and the range of the first. -/
def sequenceShape (lead : UInt8) : Option (Nat × UInt8 × UInt8) :=
  if lead < 0x80 then some (0, 0x80, 0xbf)
  else if 0xc2 ≤ lead ∧ lead ≤ 0xdf then some (1, 0x80, 0xbf)
  else if lead = 0xe0 then some (2, 0xa0, 0xbf)
  else if lead = 0xed then some (2, 0x80, 0x9f)
  else if 0xe1 ≤ lead ∧ lead ≤ 0xef then some (2, 0x80, 0xbf)
  else if lead = 0xf0 then some (3, 0x90, 0xbf)
  else if lead = 0xf4 then some (3, 0x80, 0x8f)
  else if 0xf1 ≤ lead ∧ lead ≤ 0xf3 then some (3, 0x80, 0xbf)
  else none

/-- How many of the wanted continuation bytes there are. -/
def continuationRun : Nat → UInt8 → UInt8 → Bytes → Nat
  | 0, _, _, _ => 0
  | _ + 1, _, _, [] => 0
  | wanted + 1, low, high, byte :: rest =>
    if low ≤ byte ∧ byte ≤ high then 1 + continuationRun wanted 0x80 0xbf rest else 0

/-- `String::from_utf8_lossy`: each longest broken piece of a sequence becomes U+FFFD. -/
def fromUtf8Lossy (bytes : Bytes) : String := String.ofList (decode bytes.length bytes)
where
  decode : Nat → Bytes → List Char
    | 0, _ => []
    | _ + 1, [] => []
    | fuel + 1, lead :: rest =>
      match sequenceShape lead with
      | none => '\ufffd' :: decode fuel rest
      | some (wanted, low, high) =>
        let found := continuationRun wanted low high rest
        if found = wanted then
          ((fromUtf8 (lead :: rest.take wanted)).map String.toList).getD [] ++
            decode fuel (rest.drop wanted)
        else '\ufffd' :: decode fuel (rest.drop found)

example : fromUtf8Lossy [0x61, 0xe2, 0x82, 0x62, 0xc3, 0xa9] = "a\ufffdbé" := by decide

/-! ## Headers -/

/-- The bytes of a header value. -/
abbrev HeaderValue := List UInt8

/-- Visible ASCII, the space and the tab: the bytes `HeaderValue::to_str` accepts. -/
def isVisibleAscii (byte : UInt8) : Bool :=
  (32 ≤ byte && byte < 127) || byte == 9

/-- The value as text, when it is text. -/
def HeaderValue.toStr (value : HeaderValue) : Option String :=
  if value.all isVisibleAscii then some (String.ofList (value.map fun byte => Char.ofUInt8 byte))
  else none

/-- `HeaderValue::from_str`: the value of a text that is visible ASCII. -/
def HeaderValue.fromStr (text : String) : Option HeaderValue :=
  if (asBytes text).all isVisibleAscii then some (asBytes text) else none

/-- The value that holds the bytes of `text`. -/
def HeaderValue.ofString (text : String) : HeaderValue := asBytes text

/-- A visible byte is the encoding of its character. -/
theorem utf8EncodeChar_ofUInt8 {byte : UInt8} (visible : isVisibleAscii byte = true) :
    String.utf8EncodeChar (Char.ofUInt8 byte) = [byte] := by
  have small : byte.toUInt32 ≤ 127 := by
    simp only [isVisibleAscii, Bool.or_eq_true, Bool.and_eq_true, decide_eq_true_eq, beq_iff_eq] at visible
    rcases visible with ⟨-, below⟩ | rfl
    · have bound := UInt8.lt_iff_toNat_lt.mp below
      simp only [UInt32.le_iff_toNat_le, UInt8.toNat_toUInt32]
      simp at bound ⊢
      omega
    · decide
  have size : (Char.ofUInt8 byte).utf8Size = 1 := by
    rw [Char.utf8Size_eq_one_iff]
    exact small
  have same : (Char.ofUInt8 byte).val.toUInt8 = byte := UInt8.toUInt8_toUInt32 byte
  rw [String.utf8EncodeChar_eq_singleton size, same]

/-- The text of a value is the value again. -/
theorem HeaderValue.ofString_of_toStr {value : HeaderValue} {text : String}
    (isText : HeaderValue.toStr value = some text) : HeaderValue.ofString text = value := by
  unfold HeaderValue.toStr at isText
  split at isText
  · rename_i visible
    cases isText
    have encoded : (value.map fun byte => Char.ofUInt8 byte).flatMap String.utf8EncodeChar = value := by
      rw [List.flatMap_map]
      calc value.flatMap (fun byte => String.utf8EncodeChar (Char.ofUInt8 byte))
          = value.flatMap (fun byte => [byte]) :=
            List.flatMap_congr fun byte member =>
              utf8EncodeChar_ofUInt8 (List.all_eq_true.mp visible byte member)
        _ = value := List.flatMap_singleton' value
    unfold HeaderValue.ofString asBytes
    rw [String.toByteArray_ofList, List.utf8Encode, encoded]
    simp
  · cases isText

abbrev HeaderMap := List (String × HeaderValue)

namespace HeaderMap

/-- The first value of a name. -/
def get (headers : HeaderMap) (name : String) : Option HeaderValue := headers.lookup name

/-- Replace all values of a name by one. -/
def insert (headers : HeaderMap) (name : String) (value : HeaderValue) : HeaderMap :=
  headers.filter (fun header => header.1 ≠ name) ++ [(name, value)]

/-- Add a value to those the name already has. -/
def append (headers : HeaderMap) (name : String) (value : HeaderValue) : HeaderMap :=
  headers ++ [(name, value)]

def remove (headers : HeaderMap) (name : String) : HeaderMap :=
  headers.filter fun header => header.1 ≠ name

/-- The first value of a name, when it is text. -/
def getStr (headers : HeaderMap) (name : String) : Option String :=
  (headers.get name).bind HeaderValue.toStr

/-- `insert_header` with text for the value. -/
def insertStr (headers : HeaderMap) (name text : String) : HeaderMap :=
  headers.insert name (.ofString text)

def appendStr (headers : HeaderMap) (name text : String) : HeaderMap :=
  headers.append name (.ofString text)

theorem get_remove_of_ne {headers : HeaderMap} {name other : String} (different : name ≠ other) :
    (headers.remove other).get name = headers.get name := by
  induction headers with
  | nil => rfl
  | cons header rest inductionHypothesis =>
    obtain ⟨held, value⟩ := header
    unfold remove get at inductionHypothesis ⊢
    by_cases same : held = other
    · subst same
      simpa [List.lookup_cons, beq_eq_false_iff_ne.mpr different] using inductionHypothesis
    · rw [List.filter_cons_of_pos (by simpa using same), List.lookup_cons, List.lookup_cons,
        inductionHypothesis]

theorem get_remove_self (headers : HeaderMap) (name : String) : (headers.remove name).get name = none := by
  unfold remove get
  rw [List.lookup_eq_none_iff]
  intro header member
  have other := (List.mem_filter.mp member).2
  simp only [ne_eq, decide_not, Bool.not_eq_eq_eq_not, Bool.not_true, decide_eq_false_iff_not] at other
  simpa using Ne.symm other

theorem get_insertStr_of_ne {headers : HeaderMap} {name other text : String} (different : name ≠ other) :
    (headers.insertStr other text).get name = headers.get name := by
  have removed : (headers.remove other).get name = headers.get name := get_remove_of_ne different
  show List.lookup name (headers.remove other ++ [(other, HeaderValue.ofString text)]) = _
  rw [List.lookup_append, show List.lookup name (headers.remove other) = _ from removed]
  simp [List.lookup_cons, beq_eq_false_iff_ne.mpr different]

theorem get_insertStr_self (headers : HeaderMap) (name text : String) :
    (headers.insertStr name text).get name = some (.ofString text) := by
  have removed : (headers.remove name).get name = none := get_remove_self headers name
  show List.lookup name (headers.remove name ++ [(name, HeaderValue.ofString text)]) = _
  rw [List.lookup_append, show List.lookup name (headers.remove name) = _ from removed]
  simp

theorem getStr_appendStr {headers : HeaderMap} {name other text : String} (different : name ≠ other) :
    (headers.appendStr other text).getStr name = headers.getStr name := by
  simp [getStr, get, appendStr, append, List.lookup_append, List.lookup_cons,
    beq_eq_false_iff_ne.mpr different]

/-- All values of a name. -/
def valuesOf (headers : HeaderMap) (name : String) : List HeaderValue :=
  (headers.filter fun header => header.1 = name).map Prod.snd

theorem valuesOf_appendStr_of_ne {headers : HeaderMap} {name other text : String}
    (different : other ≠ name) : (headers.appendStr other text).valuesOf name = headers.valuesOf name := by
  simp [valuesOf, appendStr, append, List.filter_append, different]

theorem valuesOf_insertStr_self (headers : HeaderMap) (name text : String) :
    (headers.insertStr name text).valuesOf name = [.ofString text] := by
  simp [valuesOf, insertStr, insert, List.filter_append, List.filter_filter]

theorem valuesOf_remove_of_ne {headers : HeaderMap} {name other : String} (different : other ≠ name) :
    (headers.remove other).valuesOf name = headers.valuesOf name := by
  unfold valuesOf remove
  rw [List.filter_filter]
  have kept : ∀ header : String × HeaderValue,
      (decide (header.1 = name) && decide (header.1 ≠ other)) = decide (header.1 = name) := by
    intro header
    by_cases same : header.1 = name
    · simp [same, Ne.symm different]
    · simp [same]
  simp only [kept]

theorem valuesOf_insertStr_of_ne {headers : HeaderMap} {name other text : String}
    (different : other ≠ name) : (headers.insertStr other text).valuesOf name = headers.valuesOf name := by
  have removed : (headers.remove other).valuesOf name = headers.valuesOf name :=
    valuesOf_remove_of_ne different
  rw [← removed]
  simp [valuesOf, insertStr, insert, remove, List.filter_append, different]

/-- Inserting headers one by one leaves under each name the last value inserted. -/
theorem valuesOf_foldl_insertStr (pairs : List (String × String)) (headers : HeaderMap) (name : String) :
    HeaderMap.valuesOf (pairs.foldl (fun headers pair => headers.insertStr pair.1 pair.2) headers) name =
      ((pairs.filter fun pair => pair.1 = name).getLast?.map fun pair =>
        [HeaderValue.ofString pair.2]).getD (headers.valuesOf name) := by
  induction pairs using List.reverseRecOn with
  | nil => rfl
  | append_singleton earlier pair inductionHypothesis =>
    rw [List.foldl_append, List.foldl_cons, List.foldl_nil, List.filter_append]
    by_cases same : pair.1 = name
    · subst same
      rw [valuesOf_insertStr_self]
      simp
    · rw [valuesOf_insertStr_of_ne same, inductionHypothesis]
      simp [same]

end HeaderMap

/-! ## Requests and responses -/

inductive Method where
  | get | head | post | put | delete | connect | options | trace | patch
  | extension (name : String)
  deriving DecidableEq, Repr

def Method.toString : Method → String
  | .get => "GET"
  | .head => "HEAD"
  | .post => "POST"
  | .put => "PUT"
  | .delete => "DELETE"
  | .connect => "CONNECT"
  | .options => "OPTIONS"
  | .trace => "TRACE"
  | .patch => "PATCH"
  | .extension name => name

structure Uri where
  /-- Scheme and authority, empty for a request target in origin form. -/
  origin : String := ""
  path : String
  query : Option String := none
  deriving DecidableEq, Repr

def Uri.toString (uri : Uri) : String :=
  uri.origin ++ uri.path ++ (uri.query.map fun query => "?" ++ query).getD ""

/-- `http::request::Parts`, less the protocol version, which is only copied. -/
structure RequestParts where
  method : Method
  uri : Uri
  headers : HeaderMap
  deriving DecidableEq, Repr

/-- `http::StatusCode`: a number of three digits. -/
@[ext] structure StatusCode where
  code : UInt16
  valid : 100 ≤ code ∧ code < 1000
  deriving DecidableEq, Repr

namespace StatusCode

def fromU16 (code : UInt16) : Option StatusCode :=
  if valid : 100 ≤ code ∧ code < 1000 then some ⟨code, valid⟩ else none

@[simp] theorem fromU16_code (status : StatusCode) : fromU16 status.code = some status := by
  simp [fromU16, status.valid]

/-- `is_client_error() || is_server_error()`. -/
def isError (status : StatusCode) : Bool := 400 ≤ status.code && status.code < 600

def isSuccess (status : StatusCode) : Bool := 200 ≤ status.code && status.code < 300

theorem isError_of_isSuccess {status : StatusCode} (success : status.isSuccess = true) :
    status.isError = false := by
  have below := UInt16.lt_iff_toNat_lt.mp (of_decide_eq_true (Bool.and_eq_true_iff.mp success).2)
  have notAbove : ¬ (400 : UInt16) ≤ status.code := by
    rw [UInt16.le_iff_toNat_le]
    simp at below ⊢
    omega
  simp [isError, notAbove]

def ok : StatusCode := ⟨200, by decide⟩
def unauthorized : StatusCode := ⟨401, by decide⟩
def forbidden : StatusCode := ⟨403, by decide⟩
def conflict : StatusCode := ⟨409, by decide⟩
def payloadTooLarge : StatusCode := ⟨413, by decide⟩

end StatusCode

/-- The head of a response: `http::response::Parts` and pingora's `ResponseHeader`. -/
structure ResponseHeader where
  status : StatusCode
  headers : HeaderMap
  deriving DecidableEq, Repr

namespace ResponseHeader

def build (status : StatusCode) : ResponseHeader := ⟨status, []⟩

def insertHeader (header : ResponseHeader) (name text : String) : ResponseHeader :=
  { header with headers := header.headers.insertStr name text }

def appendHeader (header : ResponseHeader) (name text : String) : ResponseHeader :=
  { header with headers := header.headers.appendStr name text }

def removeHeader (header : ResponseHeader) (name : String) : ResponseHeader :=
  { header with headers := header.headers.remove name }

theorem headers_insertHeader (header : ResponseHeader) (name text : String) :
    (header.insertHeader name text).headers = header.headers.insertStr name text := rfl

theorem headers_foldl_insertHeader (pairs : List (String × String)) (header : ResponseHeader) :
    (pairs.foldl (fun header pair => header.insertHeader pair.1 pair.2) header).headers =
      pairs.foldl (fun headers pair => headers.insertStr pair.1 pair.2) header.headers := by
  induction pairs generalizing header with
  | nil => rfl
  | cons pair rest inductionHypothesis => exact inductionHypothesis _

theorem status_foldl_insertHeader (pairs : List (String × String)) (header : ResponseHeader) :
    (pairs.foldl (fun header pair => header.insertHeader pair.1 pair.2) header).status =
      header.status := by
  induction pairs generalizing header with
  | nil => rfl
  | cons pair rest inductionHypothesis => exact inductionHypothesis _

end ResponseHeader

end SpectraGQL.Http
