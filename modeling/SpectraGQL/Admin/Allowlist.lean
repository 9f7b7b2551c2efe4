import SpectraGQL.Admin.Access

/-! # What an allowlist admits (`admin/mod.rs`, `is_ip_allowed`)

The masks of the ranges are computed in `u64`, cut down to 32 bits, and in `u128`.  Here every
shift and subtraction is checked, as in a debug build, and none of them ever overflows
(`isIpAllowedChecked_eq`).

An entry admits an address if it is one, or a range around it: the first bits of the two agree
(`isIpAllowed_iff`).  `u32::from_str` reads the length of a range, and takes one plus sign in
front of the digits.
-/

namespace SpectraGQL.Admin

open Data SpectraGQL.Http

/-! ## Checked arithmetic -/

/-- `u32` subtraction. -/
def checkedSub (left right : Nat) : Option Nat := if right ≤ left then some (left - right) else none

/-- A shift by less than the width. -/
def checkedShl {width : Nat} (bits : BitVec width) (shift : Nat) : Option (BitVec width) :=
  if shift < width then some (bits <<< shift) else none

def checkedDec {width : Nat} (bits : BitVec width) : Option (BitVec width) :=
  if bits = 0 then none else some (bits - 1)

/-- `!((1u64 << (32 - prefix_len)) - 1) as u32`. -/
def maskV4 (prefixLen : Nat) : Option (BitVec 32) := do
  let shift ← checkedSub 32 prefixLen
  let power ← checkedShl (1 : BitVec 64) shift
  let low ← checkedDec power
  return (~~~low).truncate 32

/-- `!((1u128 << (128 - prefix_len)) - 1)`. -/
def maskV6 (prefixLen : Nat) : Option (BitVec 128) := do
  let shift ← checkedSub 128 prefixLen
  let power ← checkedShl (1 : BitVec 128) shift
  let low ← checkedDec power
  return ~~~low

/-- The branch of a range, for either family. -/
def rangeAdmits {width : Nat} (mask : Nat → Option (BitVec width)) (client net : BitVec width)
    (prefixLen : Nat) : Option Bool :=
  if prefixLen > width then some false
  else if prefixLen = 0 then some true
  else (mask prefixLen).map fun mask => client &&& mask == net &&& mask

/-- The body of the loop, on an entry that is trimmed. -/
def entryAdmitsChecked (clientIp : IpAddr) (entry : String) : Option Bool :=
  match splitOnce '/' entry with
  | some (netStr, prefixStr) =>
    match parseU32 prefixStr with
    | none => some false
    | some prefixLen =>
      match clientIp, IpAddr.fromStr netStr with
      | .v4 client, some (.v4 net) => rangeAdmits maskV4 client net prefixLen
      | .v6 client, some (.v6 net) => rangeAdmits maskV6 client net prefixLen
      | _, _ => some false
  | none =>
    match IpAddr.fromStr entry with
    | some allowedIp => some (clientIp = allowedIp)
    | none => some false

/-- The loop of `is_ip_allowed`; nothing is answered where a checked operation overflows. -/
def isIpAllowedChecked (clientIp : IpAddr) : List String → Option Bool
  | [] => some false
  | entry :: rest =>
    if trim entry = "" then isIpAllowedChecked clientIp rest
    else
      match entryAdmitsChecked clientIp (trim entry) with
      | some true => some true
      | some false => isIpAllowedChecked clientIp rest
      | none => none

/-! ## Nothing overflows -/

theorem checkedShl_one {width shift : Nat} (small : shift < width) :
    ∃ power, checkedShl (1 : BitVec width) shift = some power ∧ power ≠ 0 ∧
      power.toNat = 2 ^ shift := by
  have toNat : ((1 : BitVec width) <<< shift).toNat = 2 ^ shift := by
    have bound : 2 ^ shift < 2 ^ width := Nat.pow_lt_pow_right (by omega) small
    have one : (1 : BitVec width).toNat = 1 := by
      rw [BitVec.ofNat_eq_ofNat, BitVec.toNat_ofNat]
      exact Nat.mod_eq_of_lt (Nat.one_lt_two_pow (by omega))
    rw [BitVec.toNat_shiftLeft, one, Nat.one_shiftLeft, Nat.mod_eq_of_lt bound]
  refine ⟨_, if_pos small, ?_, toNat⟩
  intro isZero
  have positive : 0 < 2 ^ shift := Nat.two_pow_pos shift
  have zero := congrArg BitVec.toNat isZero
  rw [toNat] at zero
  simp at zero

/-- The low bits, which a mask leaves out. -/
theorem checked_low (width : Nat) {shift : Nat} (small : shift < width) :
    ∃ power low : BitVec width, checkedShl (1 : BitVec width) shift = some power ∧
      checkedDec power = some low ∧ ∀ i, low.getLsbD i = decide (i < shift) := by
  obtain ⟨power, isPower, nonzero, toNat⟩ := checkedShl_one small
  refine ⟨power, power - 1, isPower, if_neg nonzero, fun i => ?_⟩
  have one : (1 : BitVec width).toNat = 1 := by
    rw [BitVec.ofNat_eq_ofNat, BitVec.toNat_ofNat]
    exact Nat.mod_eq_of_lt (Nat.one_lt_two_pow (by omega))
  have atLeast : (1 : BitVec width) ≤ power := by
    rw [BitVec.le_def, one, toNat]
    exact Nat.two_pow_pos shift
  have value : (power - 1).toNat = 2 ^ shift - 1 := by
    rw [BitVec.toNat_sub_of_le atLeast, toNat, one]
  rw [← BitVec.testBit_toNat, value, Nat.testBit_two_pow_sub_one]

/-- A mask keeps the first bits. -/
def Keeps {width : Nat} (mask : BitVec width) (prefixLen : Nat) : Prop :=
  ∀ i < width, mask.getLsbD i = decide (width - prefixLen ≤ i)

theorem maskV4_keeps {prefixLen : Nat} (_ : prefixLen ≠ 0) (fits : prefixLen ≤ 32) :
    ∃ mask, maskV4 prefixLen = some mask ∧ Keeps mask prefixLen := by
  obtain ⟨power, low, isPower, isLow, bits⟩ := checked_low 64
    (show 32 - prefixLen < 64 by omega)
  refine ⟨(~~~low).truncate 32, ?_, fun i small => ?_⟩
  · simp only [maskV4, checkedSub, if_pos fits, Option.bind_eq_bind, Option.bind_some, isPower, isLow]
    rfl
  · have inside : i < 64 := by omega
    rw [BitVec.truncate_eq_setWidth, BitVec.getLsbD_setWidth, BitVec.getLsbD_not, bits]
    simp only [small, inside, decide_true, Bool.true_and, ← decide_not, Nat.not_lt]

theorem maskV6_keeps {prefixLen : Nat} (positive : prefixLen ≠ 0) (fits : prefixLen ≤ 128) :
    ∃ mask, maskV6 prefixLen = some mask ∧ Keeps mask prefixLen := by
  obtain ⟨power, low, isPower, isLow, bits⟩ := checked_low 128
    (show 128 - prefixLen < 128 by omega)
  refine ⟨~~~low, ?_, fun i small => ?_⟩
  · simp only [maskV6, checkedSub, if_pos fits, Option.bind_eq_bind, Option.bind_some, isPower, isLow]
    rfl
  · rw [BitVec.getLsbD_not, bits]
    simp only [small, decide_true, Bool.true_and, ← decide_not, Nat.not_lt]

/-- Two addresses begin with the same bits. -/
def SameBits {width : Nat} (count : Nat) (left right : BitVec width) : Prop :=
  ∀ i < count, left.getMsbD i = right.getMsbD i

/-- Under a mask the first bits are what is left. -/
theorem masked_eq_iff {width prefixLen : Nat} {mask client net : BitVec width}
    (keeps : Keeps mask prefixLen) (fits : prefixLen ≤ width) :
    client &&& mask = net &&& mask ↔ SameBits prefixLen client net := by
  constructor
  · intro same i small
    have bit := congrArg (fun bits => bits.getLsbD (width - 1 - i)) same
    simp only [BitVec.getLsbD_and, keeps (width - 1 - i) (by omega)] at bit
    have kept : width - prefixLen ≤ width - 1 - i := by omega
    have inside : i < width := by omega
    simpa [BitVec.getMsbD_eq_getLsbD, kept, inside] using bit
  · intro same
    apply BitVec.eq_of_getLsbD_eq
    intro i small
    rw [BitVec.getLsbD_and, BitVec.getLsbD_and, keeps i small]
    by_cases kept : width - prefixLen ≤ i
    · have bit := same (width - 1 - i) (by omega)
      have inside : width - 1 - i < width := by omega
      have back : width - 1 - (width - 1 - i) = i := by omega
      simp only [BitVec.getMsbD_eq_getLsbD, inside, back, decide_true, Bool.true_and] at bit
      rw [bit]
    · simp [kept]

theorem matchesPrefix_iff {width : Nat} (client net : BitVec width) (prefixLen : Nat) :
    matchesPrefix client net prefixLen = true ↔ prefixLen ≤ width ∧ SameBits prefixLen client net := by
  unfold matchesPrefix
  by_cases long : prefixLen > width
  · rw [if_pos long]
    constructor
    · exact nofun
    · rintro ⟨fits, -⟩
      omega
  · rw [if_neg long]
    by_cases zero : prefixLen = 0
    · rw [if_pos zero, zero]
      simp [SameBits]
    · rw [if_neg zero]
      obtain ⟨power, low, isPower, isLow, bits⟩ := checked_low width
        (show width - prefixLen < width by omega)
      have isMask : low = ((1 : BitVec width) <<< (width - prefixLen)) - 1 := by
        simp only [checkedShl, checkedDec, Option.ite_none_right_eq_some, Option.ite_none_left_eq_some,
          Option.some.injEq] at isPower isLow
        rw [← isLow.2, ← isPower.2]
      have keeps : Keeps (~~~(((1 : BitVec width) <<< (width - prefixLen)) - 1)) prefixLen := by
        intro i small
        rw [← isMask, BitVec.getLsbD_not, bits]
        simp only [small, decide_true, Bool.true_and, ← decide_not, Nat.not_lt]
      simp only [beq_iff_eq]
      rw [masked_eq_iff keeps (by omega)]
      simp only [Nat.not_lt.mp long, true_and]

/-- The checked branch answers, and as the one that does not check. -/
theorem rangeAdmits_eq {width : Nat} {mask : Nat → Option (BitVec width)} (client net : BitVec width)
    (prefixLen : Nat) (masks : ∀ {prefixLen}, prefixLen ≠ 0 → prefixLen ≤ width →
      ∃ bits, mask prefixLen = some bits ∧ Keeps bits prefixLen) :
    rangeAdmits mask client net prefixLen = some (matchesPrefix client net prefixLen) := by
  unfold rangeAdmits
  by_cases long : prefixLen > width
  · rw [if_pos long, matchesPrefix, if_pos long]
  · rw [if_neg long]
    by_cases zero : prefixLen = 0
    · rw [if_pos zero, matchesPrefix, if_neg long, if_pos zero]
    · obtain ⟨bits, isMask, keeps⟩ := masks zero (Nat.not_lt.mp long)
      rw [if_neg zero, isMask, Option.map_some, Option.some.injEq, Bool.eq_iff_iff, matchesPrefix_iff,
        beq_iff_eq, masked_eq_iff keeps (Nat.not_lt.mp long)]
      simp only [Nat.not_lt.mp long, true_and]

theorem entryAdmitsChecked_eq (clientIp : IpAddr) (entry : String) :
    entryAdmitsChecked clientIp (trim entry) = some (entryAdmits clientIp entry) := by
  unfold entryAdmitsChecked entryAdmits
  cases splitOnce '/' (trim entry) with
  | none =>
    cases IpAddr.fromStr (trim entry) with
    | none => simp
    | some allowedIp => simp [eq_comm]
  | some parts =>
    simp only
    cases parseU32 parts.2 with
    | none => rfl
    | some prefixLen =>
      simp only
      -- only addresses of one family are compared, and only there is a mask computed
      cases clientIp with
      | v4 client =>
        cases IpAddr.fromStr parts.1 with
        | none => rfl
        | some addr =>
          cases addr with
          | v4 net => exact rangeAdmits_eq client net prefixLen maskV4_keeps
          | v6 net => rfl
      | v6 client =>
        cases IpAddr.fromStr parts.1 with
        | none => rfl
        | some addr =>
          cases addr with
          | v4 net => rfl
          | v6 net => exact rangeAdmits_eq client net prefixLen maskV6_keeps

/-- No shift and no subtraction overflows. -/
theorem isIpAllowedChecked_eq (clientIp : IpAddr) (allowlist : List String) :
    isIpAllowedChecked clientIp allowlist = some (isIpAllowed clientIp allowlist) := by
  induction allowlist with
  | nil => rfl
  | cons entry rest inductionHypothesis =>
    rw [isIpAllowedChecked, isIpAllowed, List.any_cons, entryAdmitsChecked_eq, inductionHypothesis]
    by_cases blank : trim entry = ""
    · simp [blank, isIpAllowed]
    · cases entryAdmits clientIp entry <;> simp [blank, isIpAllowed]

/-! ## An address has no slash in it -/

/-- What has been read off the front of a text has no slash in it. -/
def ReadPast (text rest : List Char) : Prop := ∃ front, text = front ++ rest ∧ '/' ∉ front

namespace ReadPast

theorem refl (text : List Char) : ReadPast text text := ⟨[], rfl, List.not_mem_nil⟩

theorem trans {text middle rest : List Char} (first : ReadPast text middle)
    (second : ReadPast middle rest) : ReadPast text rest := by
  obtain ⟨front, rfl, plain⟩ := first
  obtain ⟨more, rfl, morePlain⟩ := second
  exact ⟨front ++ more, by rw [List.append_assoc], by simp [plain, morePlain]⟩

theorem cons {char : Char} {text rest : List Char} (notSlash : char ≠ '/')
    (past : ReadPast text rest) : ReadPast (char :: text) rest := by
  obtain ⟨front, rfl, plain⟩ := past
  exact ⟨char :: front, rfl, by simp [plain, Ne.symm notSlash]⟩

end ReadPast

/-- The reader does not read a slash. -/
def Slashless {α : Type} (reader : Reader α) : Prop :=
  ∀ text value rest, reader text = some (value, rest) → ReadPast text rest

theorem readNumber_slashless (radix maxDigits limit : Nat) (allowZeroPrefix : Bool) :
    Slashless (readNumber radix maxDigits limit allowZeroPrefix) := by
  intro text value rest read
  unfold readNumber at read
  simp only at read
  split at read
  · cases read
  · cases read
    refine ⟨_, (List.takeWhile_append_dropWhile).symm, fun member => ?_⟩
    have isDigit' := List.mem_takeWhile_imp member
    have notDigit : digitValue '/' = none := by decide
    simp [isDigit, notDigit] at isDigit'

theorem readSeparated_slashless {α : Type} {separator : Char} (index : Nat) {reader : Reader α}
    (notSlash : separator ≠ '/') (slashless : Slashless reader) :
    Slashless (readSeparated separator index reader) := by
  intro text value rest read
  unfold readSeparated at read
  split at read
  · exact slashless _ _ _ read
  · cases text with
    | nil => cases read
    | cons char more =>
      simp only at read
      split at read
      · rename_i same
        exact (slashless _ _ _ read).cons (same ▸ notSlash)
      · cases read

theorem readOctetsFrom_slashless (index left : Nat) : Slashless (readOctetsFrom index left) := by
  induction left generalizing index with
  | zero =>
    intro text value rest read
    cases read
    exact .refl _
  | succ left inductionHypothesis =>
    intro text value rest read
    simp only [readOctetsFrom, Option.bind_eq_bind, Option.bind_eq_some_iff, Prod.exists] at read
    obtain ⟨octet, middle, first, octets, last, later, isValue⟩ := read
    cases isValue
    have octetRead : Slashless (readSeparated '.' index readOctet) :=
      readSeparated_slashless index (by decide) (readNumber_slashless 10 3 256 false)
    exact (octetRead _ _ _ first).trans (inductionHypothesis _ _ _ _ later)

theorem readGroupsFrom_past (index left : Nat) (text : List Char) :
    ReadPast text (readGroupsFrom index left text).2.2 := by
  induction left generalizing index text with
  | zero => exact .refl _
  | succ left inductionHypothesis =>
    unfold readGroupsFrom
    split
    · rename_i octets rest embedded
      split at embedded
      · cases embedded
      · exact readSeparated_slashless index (by decide) (readOctetsFrom_slashless 0 4) _ _ _ embedded
    · split
      · rename_i group rest read
        have groupRead : Slashless (readSeparated ':' index readGroup) :=
          readSeparated_slashless index (by decide) (readNumber_slashless 16 4 65536 true)
        exact (groupRead _ _ _ read).trans (inductionHypothesis _ _)
      · exact .refl _

theorem readIpv6_slashless : Slashless readIpv6 := by
  intro text value rest read
  have head := readGroupsFrom_past 0 8 text
  unfold readIpv6 at read
  simp only at read
  split at read
  · cases read
    exact head
  · split at read
    · cases read
    · split at read
      · rename_i more isRest
        cases read
        rw [isRest] at head
        have tail := readGroupsFrom_past 0 (7 - (readGroupsFrom 0 8 text).1.length) more
        exact head.trans ((tail.cons (by decide)).cons (by decide))
      · cases read

theorem noSlash_of_fromStr {text : String} {ip : IpAddr} (isAddr : IpAddr.fromStr text = some ip) :
    '/' ∉ text.toList := by
  have whole {rest : List Char} (past : ReadPast text.toList rest) (nothing : rest = []) :
      '/' ∉ text.toList := by
    obtain ⟨front, isText, plain⟩ := past
    rw [isText, nothing, List.append_nil]
    exact plain
  unfold IpAddr.fromStr IpAddr.readAddr at isAddr
  split at isAddr
  · rename_i octets read
    exact whole (readOctetsFrom_slashless 0 4 _ _ _ read) rfl
  · cases isAddr
  · split at isAddr
    · rename_i groups read
      exact whole (readIpv6_slashless _ _ _ read) rfl
    · cases isAddr
    · cases isAddr

/-! ## Ranges -/

/-- Decimal digits, and their value. -/
def IsDecimal (text : String) (number : Nat) : Prop :=
  text.toList ≠ [] ∧ text.toList.all (isDigit 10) = true ∧ digitsValue 10 text.toList = number

/-- Decimal digits after at most one plus sign. -/
def IsLength (text : String) (number : Nat) : Prop :=
  IsDecimal text number ∨ ∃ digits, text = "+" ++ digits ∧ IsDecimal digits number

/-- The range around an address has another address of its family in it. -/
def InRange : IpAddr → IpAddr → Nat → Prop
  | .v4 client, .v4 net, prefixLen => prefixLen ≤ 32 ∧ SameBits prefixLen client net
  | .v6 client, .v6 net, prefixLen => prefixLen ≤ 128 ∧ SameBits prefixLen client net
  | .v4 _, .v6 _, _ | .v6 _, .v4 _, _ => False

/-- An entry is the client's address or a range around it, whose length is written as
    `isLength` says. -/
def Matches (isLength : String → Nat → Prop) (clientIp : IpAddr) (entry : String) : Prop :=
  IpAddr.fromStr entry = some clientIp ∨
  ∃ net length ip prefixLen, entry = net ++ "/" ++ length ∧ IpAddr.fromStr net = some ip ∧
    isLength length prefixLen ∧ InRange clientIp ip prefixLen

theorem parseU32_eq_some_iff {text : String} {number : Nat} :
    parseU32 text = some number ↔ IsLength text number ∧ number < 4294967296 := by
  have notPlus : isDigit 10 '+' = false := by decide
  -- what is read where no sign is left
  have decimal (digits : String) :
      (if digits.toList = [] ∨ digits.toList.all (isDigit 10) = false ∨
          4294967296 ≤ digitsValue 10 digits.toList then none
        else some (digitsValue 10 digits.toList)) = some number ↔
        IsDecimal digits number ∧ number < 4294967296 := by
    unfold IsDecimal
    split
    · rename_i refused
      grind
    · rename_i accepted
      grind
  cases chars : text.toList with
  | nil =>
    have isEmpty : text = "" := String.toList_eq_nil_iff.mp chars
    subst isEmpty
    simp [parseU32, IsLength, IsDecimal]
  | cons first rest =>
    by_cases isPlus : first = '+'
    · subst isPlus
      have isText : text = "+" ++ String.ofList rest := by
        rw [← String.toList_inj, chars]
        simp
      have notDecimal : ¬ IsDecimal text number := by
        rintro ⟨-, digits, -⟩
        simp [chars, notPlus] at digits
      -- the sign is dropped, and what is left must be digits
      have parsed := decimal (String.ofList rest)
      simp only [String.toList_ofList] at parsed
      simp only [parseU32, chars, parsed, IsLength, notDecimal, false_or]
      refine and_congr_left fun _ => ⟨fun isDecimal => ⟨_, isText, isDecimal⟩, ?_⟩
      rintro ⟨digits, same, isDecimal⟩
      rw [isText, String.append_right_inj] at same
      rwa [same]
    · have noSign : ¬ ∃ digits, text = "+" ++ digits ∧ IsDecimal digits number := by
        rintro ⟨digits, rfl, -⟩
        simp [Ne.symm isPlus] at chars
      have parsed := decimal text
      rw [chars] at parsed
      have unsigned : parseU32 text = if first :: rest = [] ∨
          (first :: rest).all (isDigit 10) = false ∨ 4294967296 ≤ digitsValue 10 (first :: rest)
          then none else some (digitsValue 10 (first :: rest)) := by
        simp [parseU32, chars, isPlus]
      rw [unsigned, parsed, IsLength, or_iff_left noSign]

/-- `split_once` cuts a text at the first separator. -/
theorem splitOnce_eq_some_iff {separator : Char} {text front back : String} :
    splitOnce separator text = some (front, back) ↔
      text.toList = front.toList ++ separator :: back.toList ∧ separator ∉ front.toList := by
  unfold splitOnce
  constructor
  · intro cut
    split at cut
    · rename_i found
      simp only [Option.some.injEq, Prod.mk.injEq] at cut
      obtain ⟨rfl, rfl⟩ := cut
      simp only [String.toList_ofList]
      constructor
      · cases rest : text.toList.dropWhile (· ≠ separator) with
        | nil =>
          -- nothing is left only where there is no separator
          rw [List.dropWhile_eq_nil_iff] at rest
          have member := rest separator (List.contains_iff_mem.mp found)
          simp at member
        | cons char back =>
          -- what stops `dropWhile` is the separator
          have isSeparator := List.head?_dropWhile_not (fun char => decide (char ≠ separator)) text.toList
          rw [rest] at isSeparator
          simp only [List.head?_cons, ne_eq, decide_not, Bool.not_eq_false',
            decide_eq_true_eq] at isSeparator
          have whole := List.takeWhile_append_dropWhile
            (p := fun char => decide (char ≠ separator)) (l := text.toList)
          rw [rest, isSeparator] at whole
          exact whole.symm
      · intro member
        have other := List.mem_takeWhile_imp member
        simp at other
    · cases cut
  · rintro ⟨isText, plain⟩
    have before (char : Char) (member : char ∈ front.toList) : decide (char ≠ separator) = true := by
      simp only [ne_eq, decide_not, Bool.not_eq_true', decide_eq_false_iff_not]
      rintro rfl
      exact plain member
    rw [isText, List.takeWhile_append_of_pos before, List.dropWhile_append_of_pos before]
    simp

theorem splitOnce_eq_none_iff {separator : Char} {text : String} :
    splitOnce separator text = none ↔ separator ∉ text.toList := by
  simp [splitOnce]

theorem matchesPrefix_family {clientIp ip : IpAddr} {prefixLen : Nat} :
    (match clientIp, some ip with
      | .v4 client, some (.v4 net) => matchesPrefix client net prefixLen
      | .v6 client, some (.v6 net) => matchesPrefix client net prefixLen
      | .v4 _, some (.v6 _) => false
      | .v6 _, some (.v4 _) => false
      | .v4 _, none => false
      | .v6 _, none => false) = true ↔ InRange clientIp ip prefixLen := by
  cases clientIp with
  | v4 client =>
    cases ip with
    | v4 net => exact matchesPrefix_iff client net prefixLen
    | v6 net => exact ⟨nofun, False.elim⟩
  | v6 client =>
    cases ip with
    | v4 net => exact ⟨nofun, False.elim⟩
    | v6 net => exact matchesPrefix_iff client net prefixLen

/-- A range shorter than all addresses has a length that `u32` can hold. -/
theorem InRange.small {clientIp ip : IpAddr} {prefixLen : Nat} (inRange : InRange clientIp ip prefixLen) :
    prefixLen < 4294967296 := by
  cases clientIp with
  | v4 client =>
    cases ip with
    | v4 net =>
      have fits := inRange.1
      omega
    | v6 net => exact inRange.elim
  | v6 client =>
    cases ip with
    | v4 net => exact inRange.elim
    | v6 net =>
      have fits := inRange.1
      omega

/-- An entry admits those that it matches. -/
theorem entryAdmits_iff (clientIp : IpAddr) (entry : String) :
    entryAdmits clientIp entry = true ↔ Matches IsLength clientIp (trim entry) := by
  unfold entryAdmits Matches
  cases cut : splitOnce '/' (trim entry) with
  | none =>
    have plain := splitOnce_eq_none_iff.mp cut
    have noRange : ¬ ∃ net length ip prefixLen, trim entry = net ++ "/" ++ length ∧
        IpAddr.fromStr net = some ip ∧ IsLength length prefixLen ∧ InRange clientIp ip prefixLen := by
      rintro ⟨net, length, -, -, isEntry, -⟩
      simp [isEntry] at plain
    simp only [decide_eq_true_eq, noRange, or_false]
  | some parts =>
    obtain ⟨front, back⟩ := parts
    obtain ⟨isEntry, plain⟩ := splitOnce_eq_some_iff.mp cut
    have notAddr : IpAddr.fromStr (trim entry) ≠ some clientIp := by
      intro isAddr
      have noSlash := noSlash_of_fromStr isAddr
      simp [isEntry] at noSlash
    simp only [notAddr, false_or]
    constructor
    · intro admits
      cases parsed : parseU32 back with
      | none => simp [parsed] at admits
      | some prefixLen =>
        cases isNet : IpAddr.fromStr front with
        | none =>
          simp only [parsed, isNet] at admits
          cases clientIp <;> cases admits
        | some ip =>
          simp only [parsed, isNet] at admits
          refine ⟨front, back, ip, prefixLen, ?_, isNet, (parseU32_eq_some_iff.mp parsed).1,
            matchesPrefix_family.mp admits⟩
          rw [← String.toList_inj, isEntry]
          simp
    · rintro ⟨net, length, ip, prefixLen, isRange, isNet, isLength, inRange⟩
      -- the slash of the range is the first one
      have here : splitOnce '/' (trim entry) = some (net, length) := by
        refine splitOnce_eq_some_iff.mpr ⟨?_, noSlash_of_fromStr isNet⟩
        rw [isRange]
        simp
      rw [cut, Option.some.injEq, Prod.mk.injEq] at here
      obtain ⟨rfl, rfl⟩ := here
      have parsed := parseU32_eq_some_iff.mpr ⟨isLength, inRange.small⟩
      simp only [parsed, isNet]
      exact matchesPrefix_family.mpr inRange

/-- What is left of an empty entry is no address and no range. -/
theorem not_matches_empty (isLength : String → Nat → Prop) (clientIp : IpAddr) :
    ¬ Matches isLength clientIp "" := by
  rintro (isAddr | ⟨net, length, -, -, isEntry, -⟩)
  · have notAddr : IpAddr.fromStr "" = none := by decide
    rw [notAddr] at isAddr
    cases isAddr
  · have chars := congrArg String.toList isEntry
    simp at chars

theorem isIpAllowed_iff (clientIp : IpAddr) (allowlist : List String) :
    isIpAllowed clientIp allowlist = true ↔
      ∃ entry ∈ allowlist, Matches IsLength clientIp (trim entry) := by
  unfold isIpAllowed
  rw [List.any_eq_true]
  refine exists_congr fun entry => and_congr_right fun _ => ?_
  rw [Bool.and_eq_true, decide_eq_true_eq, entryAdmits_iff]
  refine and_iff_right_of_imp fun isMatch isEmpty => ?_
  rw [isEmpty] at isMatch
  exact not_matches_empty IsLength clientIp isMatch

/-- An address is allowed exactly if some entry is it, or a range around it of decimal length, with
    one plus sign at most.  Other entries match nothing and make no difference, and nothing
    overflows on the way. -/
theorem allowlist_exact (clientIp : IpAddr) (allowlist : List String) :
    isIpAllowedChecked clientIp allowlist = some (isIpAllowed clientIp allowlist) ∧
    (isIpAllowed clientIp allowlist = true ↔
      ∃ entry ∈ allowlist, Matches IsLength clientIp (trim entry)) ∧
    ∀ before entry after, allowlist = before ++ entry :: after →
      ¬ Matches IsLength clientIp (trim entry) →
      isIpAllowed clientIp allowlist = isIpAllowed clientIp (before ++ after) := by
  refine ⟨isIpAllowedChecked_eq clientIp allowlist, isIpAllowed_iff clientIp allowlist, ?_⟩
  rintro before entry after rfl noMatch
  have notAdmitted : entryAdmits clientIp entry = false := by
    rw [← Bool.not_eq_true, entryAdmits_iff]
    exact noMatch
  simp [isIpAllowed, notAdmitted]

/-- The length of this range is no decimal number, and the range has the client in it. -/
theorem plus_sign_allowed : ¬ ∀ clientIp allowlist, isIpAllowed clientIp allowlist = true ↔
    ∃ entry ∈ allowlist, Matches IsDecimal clientIp (trim entry) := by
  intro exact'
  have allowed : isIpAllowed (.v4 0x0a010203) ["10.0.0.0/+8"] = true := by decide +kernel
  obtain ⟨entry, member, isMatch⟩ := (exact' _ _).mp allowed
  rw [List.mem_singleton.mp member, show trim "10.0.0.0/+8" = "10.0.0.0/+8" by decide] at isMatch
  rcases isMatch with isAddr | ⟨net, length, ip, prefixLen, isEntry, isNet, isDecimal, -⟩
  · exact absurd isAddr (by decide +kernel)
  · have here : splitOnce '/' "10.0.0.0/+8" = some (net, length) := by
      refine splitOnce_eq_some_iff.mpr ⟨?_, noSlash_of_fromStr isNet⟩
      rw [isEntry]
      simp
    rw [show splitOnce '/' "10.0.0.0/+8" = some ("10.0.0.0", "+8") by decide, Option.some.injEq,
      Prod.mk.injEq] at here
    rw [← here.2] at isDecimal
    exact absurd isDecimal.2.1 (by decide)

end SpectraGQL.Admin
