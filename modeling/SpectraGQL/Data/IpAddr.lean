import Mathlib.Algebra.Group.Nat.Defs
import Mathlib.Data.List.Basic
import Mathlib.Tactic.Common

/-! # IP addresses and their texts

The two kinds of addresses, and the reader of `core::net`: an IPv4 address is four octets
without leading zeros, an IPv6 address is eight groups, of which a run of zeros may be left out
once and the last two may be written as an IPv4 address.  `readAddr_write` says that every
address has a text that the reader takes for it.
-/

namespace Data

inductive IpAddr where
  | v4 (bits : BitVec 32)
  | v6 (bits : BitVec 128)
  deriving DecidableEq, Repr

/-! ## Digits -/

/-- The number with the digits, the highest first. -/
def ofDigits (base : Nat) (digits : List Nat) : Nat :=
  digits.foldl (fun value digit => value * base + digit) 0

/-- The last digits of a number, as many as are asked for. -/
def fixedDigits (base : Nat) : Nat → Nat → List Nat
  | 0, _ => []
  | count + 1, number => fixedDigits base count (number / base) ++ [number % base]

@[simp] theorem length_fixedDigits (base count number : Nat) :
    (fixedDigits base count number).length = count := by
  induction count generalizing number with
  | zero => rfl
  | succ count inductionHypothesis => simp [fixedDigits, inductionHypothesis]

theorem lt_of_mem_fixedDigits {base count number digit : Nat} (positive : 0 < base)
    (member : digit ∈ fixedDigits base count number) : digit < base := by
  induction count generalizing number with
  | zero => cases member
  | succ count inductionHypothesis =>
    cases List.mem_append.mp member with
    | inl higher => exact inductionHypothesis higher
    | inr last =>
      rw [List.mem_singleton.mp last]
      exact Nat.mod_lt _ positive

theorem ofDigits_fixedDigits {base count number : Nat} (fits : number < base ^ count) :
    ofDigits base (fixedDigits base count number) = number := by
  induction count generalizing number with
  | zero =>
    have zero : number = 0 := by simpa using fits
    rw [zero]
    rfl
  | succ count inductionHypothesis =>
    have higher : number / base < base ^ count := by
      rw [Nat.pow_succ] at fits
      exact Nat.div_lt_of_lt_mul (by rwa [Nat.mul_comm])
    have folded := inductionHypothesis higher
    unfold ofDigits at folded ⊢
    unfold fixedDigits
    rw [List.foldl_append, folded]
    exact Nat.div_add_mod' number base

/-! ## Reading -/

/-- A reader takes a value off the front of a text. -/
abbrev Reader (α : Type) := List Char → Option (α × List Char)

/-- `char::to_digit`, for a radix up to 36. -/
def digitValue (char : Char) : Option Nat :=
  if '0' ≤ char ∧ char ≤ '9' then some (char.toNat - '0'.toNat)
  else if 'a' ≤ char ∧ char ≤ 'z' then some (char.toNat - 'a'.toNat + 10)
  else if 'A' ≤ char ∧ char ≤ 'Z' then some (char.toNat - 'A'.toNat + 10)
  else none

def isDigit (radix : Nat) (char : Char) : Bool := (digitValue char).any (· < radix)

/-- The value of a run of digits. -/
def digitsValue (radix : Nat) (digits : List Char) : Nat :=
  ofDigits radix (digits.map fun char => (digitValue char).getD 0)

/-- The longest run of digits, when it is not too long and its value is below the limit. -/
def readNumber (radix maxDigits limit : Nat) (allowZeroPrefix : Bool) : Reader Nat := fun text =>
  let digits := text.takeWhile (isDigit radix)
  if digits = [] ∨ maxDigits < digits.length ∨
      (allowZeroPrefix = false ∧ digits.head? = some '0' ∧ 1 < digits.length) ∨
      limit ≤ digitsValue radix digits then none
  else some (digitsValue radix digits, text.dropWhile (isDigit radix))

/-- A value after a separator, which the first one does not have. -/
def readSeparated {α : Type} (separator : Char) (index : Nat) (reader : Reader α) : Reader α := fun text =>
  if index = 0 then reader text
  else
    match text with
    | char :: rest => if char = separator then reader rest else none
    | [] => none

def readOctet : Reader Nat := readNumber 10 3 256 false

def readOctetsFrom (index : Nat) : Nat → Reader (List Nat)
  | 0, text => some ([], text)
  | left + 1, text => do
    let (octet, rest) ← readSeparated '.' index readOctet text
    let (octets, rest) ← readOctetsFrom (index + 1) left rest
    return (octet :: octets, rest)

def readIpv4 : Reader (List Nat) := readOctetsFrom 0 4

def readGroup : Reader Nat := readNumber 16 4 65536 true

/-- Two octets make a group. -/
def pairOctets : List Nat → List Nat
  | high :: low :: rest => (high * 256 + low) :: pairOctets rest
  | _ => []

/-- Groups up to the given number, whether an IPv4 address ended them, and what is left. -/
def readGroupsFrom (index : Nat) : Nat → List Char → List Nat × Bool × List Char
  | 0, text => ([], false, text)
  | left + 1, text =>
    -- an IPv4 address takes the place of two groups
    match if left = 0 then none else readSeparated ':' index readIpv4 text with
    | some (octets, rest) => (pairOctets octets, true, rest)
    | none =>
      match readSeparated ':' index readGroup text with
      | some (group, rest) =>
        let (groups, embedded, rest) := readGroupsFrom (index + 1) left rest
        (group :: groups, embedded, rest)
      | none => ([], false, text)

def readIpv6 : Reader (List Nat) := fun text =>
  let (head, embedded, rest) := readGroupsFrom 0 8 text
  if head.length = 8 then some (head, rest)
  else if embedded then none
  else
    match rest with
    | ':' :: ':' :: rest =>
      let (tail, _, rest) := readGroupsFrom 0 (7 - head.length) rest
      some (head ++ List.replicate (8 - head.length - tail.length) 0 ++ tail, rest)
    | _ => none

namespace IpAddr

def ofOctets (octets : List Nat) : IpAddr := .v4 (BitVec.ofNat 32 (ofDigits 256 octets))

def ofGroups (groups : List Nat) : IpAddr := .v6 (BitVec.ofNat 128 (ofDigits 65536 groups))

/-- An IPv6 address is tried where there is no IPv4 address; nothing may be left. -/
def readAddr (text : List Char) : Option IpAddr :=
  match readIpv4 text with
  | some (octets, []) => some (ofOctets octets)
  | some (_, _ :: _) => none
  | none =>
    match readIpv6 text with
    | some (groups, []) => some (ofGroups groups)
    | some (_, _ :: _) => none
    | none => none

def fromStr (text : String) : Option IpAddr := readAddr text.toList

example : ["127.0.0.1", "::1", "1.2.3", "01.2.3.4", "256.1.1.1", "::ffff:10.0.0.1", "1::2::3"].map fromStr =
    [some (.v4 0x7f000001), some (.v6 1), none, none, none, some (.v6 0xffff0a000001), none] := by
  decide +kernel

end IpAddr

/-! ## Writing -/

def writeOctet (octet : Nat) : List Char := Nat.toDigits 10 octet

/-- A group with all of its four digits. -/
def writeGroup (group : Nat) : List Char := (fixedDigits 16 4 group).map Nat.digitChar

/-- The parts with a separator before each, if not before the very first. -/
def writeSeparated (separator : Char) (index : Nat) : List (List Char) → List Char
  | [] => []
  | part :: parts =>
    (if index = 0 then part else separator :: part) ++ writeSeparated separator (index + 1) parts

def IpAddr.write : IpAddr → List Char
  | v4 bits => writeSeparated '.' 0 ((fixedDigits 256 4 bits.toNat).map writeOctet)
  | v6 bits => writeSeparated ':' 0 ((fixedDigits 65536 8 bits.toNat).map writeGroup)

/-- The text that a reader stops before has no digit in front. -/
def StopsDigits (radix : Nat) (text : List Char) : Prop := ∀ char ∈ text.head?, isDigit radix char = false

theorem stopsDigits_nil (radix : Nat) : StopsDigits radix [] := by
  intro char member
  cases member

theorem stopsDigits_writeSeparated {separator : Char} {radix : Nat} (index : Nat)
    (parts : List (List Char)) (notDigit : isDigit radix separator = false) :
    StopsDigits radix (writeSeparated separator (index + 1) parts) := by
  cases parts with
  | nil => exact stopsDigits_nil radix
  | cons part parts =>
    intro char member
    cases member
    exact notDigit

theorem readNumber_append {radix maxDigits limit : Nat} {allowZeroPrefix : Bool} {digits rest : List Char}
    (areDigits : ∀ char ∈ digits, isDigit radix char = true) (stops : StopsDigits radix rest)
    (nonempty : digits ≠ []) (short : digits.length ≤ maxDigits)
    (noZeroPrefix : allowZeroPrefix = true ∨ digits.head? ≠ some '0' ∨ digits.length ≤ 1)
    (small : digitsValue radix digits < limit) :
    readNumber radix maxDigits limit allowZeroPrefix (digits ++ rest) =
      some (digitsValue radix digits, rest) := by
  have taken : rest.takeWhile (isDigit radix) = [] := by
    cases rest with
    | nil => rfl
    | cons char rest => simp [stops char rfl]
  have left : rest.dropWhile (isDigit radix) = rest := by
    cases rest with
    | nil => rfl
    | cons char rest => simp [stops char rfl]
  unfold readNumber
  rw [List.takeWhile_append_of_pos areDigits, List.dropWhile_append_of_pos areDigits, taken, left,
    List.append_nil]
  -- none of the reasons to refuse a number applies
  refine if_neg ?_
  intro refused
  cases refused with
  | inl isEmpty => exact nonempty isEmpty
  | inr refused =>
    cases refused with
    | inl long => omega
    | inr refused =>
      cases refused with
      | inl zeroPrefix =>
        obtain ⟨notAllowed, isZero, long⟩ := zeroPrefix
        cases noZeroPrefix with
        | inl allowed => simp [notAllowed] at allowed
        | inr either => exact either.elim (absurd isZero) (by omega)
      | inr large => omega

theorem digitValue_digitChar {digit : Nat} (small : digit < 16) :
    digitValue (Nat.digitChar digit) = some digit := by
  revert digit
  decide

/-- The characters of addresses. -/
def addrChars : List Char := "0123456789abcdef.:".toList

/-- What is asked of the text of an octet. -/
def octetReadable (octet : Nat) : Bool :=
  let text := writeOctet octet
  text.all (fun char => isDigit 10 char && addrChars.contains char) && !text.isEmpty &&
    text.length ≤ 3 && (text.head? != some '0' || text.length ≤ 1) && digitsValue 10 text == octet

theorem octetReadable_all : (List.range 256).all octetReadable = true := by decide +kernel

theorem octetReadable_of_lt {octet : Nat} (small : octet < 256) : octetReadable octet = true :=
  List.all_eq_true.mp octetReadable_all octet (List.mem_range.mpr small)

theorem writeOctet_readable {octet : Nat} (small : octet < 256) :
    (∀ char ∈ writeOctet octet, isDigit 10 char = true) ∧ writeOctet octet ≠ [] ∧
      (writeOctet octet).length ≤ 3 ∧
      ((writeOctet octet).head? ≠ some '0' ∨ (writeOctet octet).length ≤ 1) ∧
      digitsValue 10 (writeOctet octet) = octet := by
  have readable := octetReadable_of_lt small
  simp only [octetReadable, Bool.and_eq_true, List.all_eq_true, Bool.not_eq_true', List.isEmpty_eq_false_iff,
    decide_eq_true_eq, Bool.or_eq_true, bne_iff_ne, beq_iff_eq] at readable
  obtain ⟨⟨⟨⟨chars, nonempty⟩, short⟩, noZeroPrefix⟩, isValue⟩ := readable
  exact ⟨fun char member => (chars char member).1, nonempty, short, noZeroPrefix, isValue⟩

theorem mem_addrChars_of_mem_writeOctet {octet : Nat} {char : Char} (small : octet < 256)
    (member : char ∈ writeOctet octet) : char ∈ addrChars := by
  have readable := octetReadable_of_lt small
  simp only [octetReadable, Bool.and_eq_true, List.all_eq_true, List.contains_iff_mem] at readable
  exact (readable.1.1.1.1 char member).2

theorem readOctet_append {octet : Nat} {rest : List Char} (small : octet < 256)
    (stops : StopsDigits 10 rest) : readOctet (writeOctet octet ++ rest) = some (octet, rest) := by
  obtain ⟨areDigits, nonempty, short, noZeroPrefix, isValue⟩ := writeOctet_readable small
  have below : digitsValue 10 (writeOctet octet) < 256 := by
    rw [isValue]
    exact small
  unfold readOctet
  rw [readNumber_append areDigits stops nonempty short (.inr noZeroPrefix) below, isValue]

theorem readGroup_append {group : Nat} {rest : List Char} (small : group < 65536)
    (stops : StopsDigits 16 rest) : readGroup (writeGroup group ++ rest) = some (group, rest) := by
  have digitOf : ∀ digit ∈ fixedDigits 16 4 group, digitValue (Nat.digitChar digit) = some digit :=
    fun digit member => digitValue_digitChar (lt_of_mem_fixedDigits (by decide) member)
  have areDigits : ∀ char ∈ writeGroup group, isDigit 16 char = true := by
    intro char member
    obtain ⟨digit, isDigit16, rfl⟩ := List.mem_map.mp member
    have below : digit < 16 := lt_of_mem_fixedDigits (by decide) isDigit16
    unfold isDigit
    rw [digitOf digit isDigit16]
    simpa using below
  have isValue : digitsValue 16 (writeGroup group) = group := by
    unfold digitsValue writeGroup
    rw [List.map_map]
    have values : (fixedDigits 16 4 group).map
        ((fun char => (digitValue char).getD 0) ∘ Nat.digitChar) = fixedDigits 16 4 group := by
      refine (List.map_congr_left fun digit member => ?_).trans (List.map_id _)
      simp [digitOf digit member]
    rw [values]
    exact ofDigits_fixedDigits (by simpa using small)
  have length : (writeGroup group).length = 4 := by simp [writeGroup]
  have below : digitsValue 16 (writeGroup group) < 65536 := by
    rw [isValue]
    exact small
  unfold readGroup
  rw [readNumber_append areDigits stops (List.ne_nil_of_length_pos (by omega)) (by omega) (.inl rfl)
    below, isValue]

theorem readSeparated_append {α : Type} (separator : Char) (index : Nat) (reader : Reader α)
    (part rest : List Char) :
    readSeparated separator index reader ((if index = 0 then part else separator :: part) ++ rest) =
      reader (part ++ rest) := by
  unfold readSeparated
  split <;> simp_all

theorem readOctetsFrom_write {octets : List Nat} (small : ∀ octet ∈ octets, octet < 256) (index : Nat) :
    readOctetsFrom index octets.length (writeSeparated '.' index (octets.map writeOctet)) =
      some (octets, []) := by
  induction octets generalizing index with
  | nil => rfl
  | cons octet octets inductionHypothesis =>
    have later := inductionHypothesis (fun other member => small other (List.mem_cons_of_mem _ member))
      (index + 1)
    have first := readOctet_append (small octet List.mem_cons_self)
      (stopsDigits_writeSeparated index (octets.map writeOctet) (show isDigit 10 '.' = false by decide))
    simp only [List.map_cons, List.length_cons, writeSeparated, readOctetsFrom, readSeparated_append,
      first, Option.bind_eq_bind, Option.bind_some, later]
    rfl

/-- What stands behind an octet is the first character after its digits, of which there are at
    most three. -/
theorem readOctet_rest {text rest : List Char} {octet : Nat} (read : readOctet text = some (octet, rest)) :
    ∀ char ∈ rest.head?, char ∈ text.take 4 := by
  unfold readOctet readNumber at read
  dsimp only at read
  split at read
  · cases read
  · rename_i accepted
    cases read
    intro char isNext
    have short : (text.takeWhile (isDigit 10)).length < 4 := by omega
    have found : text[(text.takeWhile (isDigit 10)).length]? = some char := by
      calc text[(text.takeWhile (isDigit 10)).length]?
          = (text.takeWhile (isDigit 10) ++ text.dropWhile (isDigit 10))[
              (text.takeWhile (isDigit 10)).length]? := by rw [List.takeWhile_append_dropWhile]
        _ = (text.dropWhile (isDigit 10)).head? := by
            rw [List.getElem?_append_right (Nat.le_refl _), Nat.sub_self, List.head?_eq_getElem?]
        _ = some char := isNext
    refine List.mem_of_getElem? (i := (text.takeWhile (isDigit 10)).length) ?_
    rw [List.getElem?_take_of_lt short]
    exact found

/-- An IPv4 address has a dot among its first characters. -/
theorem readIpv4_of_noDot {text : List Char} (noDot : ∀ char ∈ text.take 4, char ≠ '.') :
    readIpv4 text = none := by
  have first : readSeparated '.' 0 readOctet text = readOctet text := rfl
  unfold readIpv4 readOctetsFrom
  rw [first]
  cases read : readOctet text with
  | none => rfl
  | some found =>
    obtain ⟨octet, rest⟩ := found
    have noSecond : readOctetsFrom 1 3 rest = none := by
      unfold readOctetsFrom readSeparated
      cases rest with
      | nil => rfl
      | cons char rest =>
        have notDot := noDot char (readOctet_rest read char rfl)
        simp [notDot]
    simp [noSecond]

theorem readIpv4_writeGroup (group : Nat) (rest : List Char) :
    readIpv4 (writeGroup group ++ rest) = none := by
  refine readIpv4_of_noDot fun char member => ?_
  have length : (writeGroup group).length = 4 := by simp [writeGroup]
  rw [List.take_append_of_le_length (by omega)] at member
  obtain ⟨digit, isDigit16, rfl⟩ := List.mem_map.mp (List.mem_of_mem_take member)
  have notDot : ∀ digit < 16, Nat.digitChar digit ≠ '.' := by decide
  exact notDot digit (lt_of_mem_fixedDigits (by decide) isDigit16)

theorem readGroupsFrom_write {groups : List Nat} (small : ∀ group ∈ groups, group < 65536) (index : Nat) :
    readGroupsFrom index groups.length (writeSeparated ':' index (groups.map writeGroup)) =
      (groups, false, []) := by
  induction groups generalizing index with
  | nil => rfl
  | cons group groups inductionHypothesis =>
    have later := inductionHypothesis (fun other member => small other (List.mem_cons_of_mem _ member))
      (index + 1)
    have first := readGroup_append (small group List.mem_cons_self)
      (stopsDigits_writeSeparated index (groups.map writeGroup) (show isDigit 16 ':' = false by decide))
    have notIpv4 := readIpv4_writeGroup group (writeSeparated ':' (index + 1) (groups.map writeGroup))
    simp only [List.map_cons, List.length_cons, writeSeparated, readGroupsFrom, readSeparated_append,
      first, notIpv4, ite_self, later]

/-- Every address has a text. -/
theorem IpAddr.readAddr_write (addr : IpAddr) : readAddr addr.write = some addr := by
  cases addr with
  | v4 bits =>
    have small : ∀ octet ∈ fixedDigits 256 4 bits.toNat, octet < 256 := fun octet member =>
      lt_of_mem_fixedDigits (by decide) member
    have octets := readOctetsFrom_write small 0
    rw [length_fixedDigits] at octets
    have number : ofDigits 256 (fixedDigits 256 4 bits.toNat) = bits.toNat :=
      ofDigits_fixedDigits bits.isLt
    unfold readAddr write readIpv4
    rw [octets]
    simp [ofOctets, number]
  | v6 bits =>
    have small : ∀ group ∈ fixedDigits 65536 8 bits.toNat, group < 65536 := fun group member =>
      lt_of_mem_fixedDigits (by decide) member
    have groups := readGroupsFrom_write small 0
    rw [length_fixedDigits] at groups
    have number : ofDigits 65536 (fixedDigits 65536 8 bits.toNat) = bits.toNat :=
      ofDigits_fixedDigits bits.isLt
    -- the reader tries IPv4 first
    have notIpv4 : readIpv4 (write (.v6 bits)) = none := by
      unfold write
      cases parts : fixedDigits 65536 8 bits.toNat with
      | nil =>
        have length := length_fixedDigits 65536 8 bits.toNat
        simp [parts] at length
      | cons group groups => exact readIpv4_writeGroup ..
    unfold readAddr
    rw [notIpv4]
    unfold readIpv6 write
    rw [groups]
    simp [ofGroups, number]

theorem mem_writeSeparated {separator char : Char} {index : Nat} {parts : List (List Char)}
    (member : char ∈ writeSeparated separator index parts) :
    char = separator ∨ ∃ part ∈ parts, char ∈ part := by
  induction parts generalizing index with
  | nil => cases member
  | cons part parts inductionHypothesis =>
    cases List.mem_append.mp member with
    | inl inFirst =>
      split at inFirst
      · exact .inr ⟨part, List.mem_cons_self, inFirst⟩
      · cases List.mem_cons.mp inFirst with
        | inl isSeparator => exact .inl isSeparator
        | inr inPart => exact .inr ⟨part, List.mem_cons_self, inPart⟩
    | inr later =>
      cases inductionHypothesis later with
      | inl isSeparator => exact .inl isSeparator
      | inr found =>
        obtain ⟨other, isOther, inOther⟩ := found
        exact .inr ⟨other, List.mem_cons_of_mem _ isOther, inOther⟩

theorem mem_addrChars_of_mem_write {addr : IpAddr} {char : Char} (member : char ∈ addr.write) :
    char ∈ addrChars := by
  cases addr with
  | v4 bits =>
    cases mem_writeSeparated member with
    | inl isSeparator =>
      rw [isSeparator]
      decide
    | inr found =>
      obtain ⟨part, isPart, inPart⟩ := found
      obtain ⟨octet, isOctet, rfl⟩ := List.mem_map.mp isPart
      exact mem_addrChars_of_mem_writeOctet (lt_of_mem_fixedDigits (by decide) isOctet) inPart
  | v6 bits =>
    cases mem_writeSeparated member with
    | inl isSeparator =>
      rw [isSeparator]
      decide
    | inr found =>
      obtain ⟨part, isPart, inPart⟩ := found
      obtain ⟨group, -, rfl⟩ := List.mem_map.mp isPart
      obtain ⟨digit, isDigit16, rfl⟩ := List.mem_map.mp inPart
      have digits : ∀ digit < 16, Nat.digitChar digit ∈ addrChars := by decide
      exact digits digit (lt_of_mem_fixedDigits (by decide) isDigit16)

end Data
