import Mathlib.Algebra.Group.Nat.Defs
import Mathlib.Data.List.Forall2
import Mathlib.Tactic.Common

/-! # Sequences of integers in the distinguished encoding rules

The basic rules write a length and an integer in many ways (`ber`); the distinguished rules
take the shortest (`der`).  An encoding of a sequence by the distinguished rules is then no longer
than any by the basic ones (`der_length_le`), and a strict reader, which checks the octets one by
one, reads exactly these (`decodeIntegers_iff`).
-/

namespace Data.Der

/-! ## Numbers -/

theorem toNat_ofNat (number : Nat) (small : number < 256) : (UInt8.ofNat number).toNat = number :=
  UInt8.toNat_ofNat_of_lt' small

/-- The number whose digits to the base 256 are the bytes, the highest first. -/
def bigEndian : List UInt8 → Nat
  | [] => 0
  | first :: rest => first.toNat * 256 ^ rest.length + bigEndian rest

/-- The number in two's complement: the highest digit may be negative. -/
def signed : List UInt8 → Int
  | [] => 0
  | first :: rest =>
    (if first < 0x80 then (first.toNat : Int) else first.toNat - 256) * (256 ^ rest.length : Nat) +
      bigEndian rest

theorem bigEndian_cons (first : UInt8) (rest : List UInt8) :
    bigEndian (first :: rest) = first.toNat * 256 ^ rest.length + bigEndian rest := rfl

theorem bigEndian_lt (octets : List UInt8) : bigEndian octets < 256 ^ octets.length := by
  induction octets with
  | nil => simp [bigEndian]
  | cons first rest inductionHypothesis =>
    have digit : first.toNat + 1 ≤ 256 := first.toNat_lt
    have highest := Nat.mul_le_mul_right (256 ^ rest.length) digit
    rw [Nat.succ_mul] at highest
    rw [bigEndian, List.length_cons, Nat.pow_succ]
    omega

/-- A first octet other than zero gives the number its size. -/
theorem le_bigEndian {first : UInt8} (rest : List UInt8) (notZero : first ≠ 0) :
    256 ^ rest.length ≤ bigEndian (first :: rest) := by
  have positive : 1 ≤ first.toNat := by
    have different : first.toNat ≠ 0 := fun zero => notZero (UInt8.toNat_inj.mp zero)
    omega
  have highest := Nat.mul_le_mul_right (256 ^ rest.length) positive
  rw [bigEndian]
  omega

/-- Every number below the bound has its octets, with zeros in front. -/
theorem exists_bigEndian {count number : Nat} (fits : number < 256 ^ count) :
    ∃ octets : List UInt8, octets.length = count ∧ bigEndian octets = number := by
  induction count generalizing number with
  | zero =>
    have zero : number = 0 := by simpa using fits
    exact ⟨[], rfl, by rw [zero]; rfl⟩
  | succ count inductionHypothesis =>
    obtain ⟨rest, length, value⟩ := inductionHypothesis (Nat.mod_lt number (Nat.pow_pos (by omega)))
    have digit : number / 256 ^ count < 256 := by
      rw [Nat.pow_succ] at fits
      exact Nat.div_lt_of_lt_mul fits
    refine ⟨UInt8.ofNat (number / 256 ^ count) :: rest, by simp [length], ?_⟩
    rw [bigEndian, length, value, toNat_ofNat _ digit]
    exact Nat.div_add_mod' number (256 ^ count)

/-! ## The rules -/

/-- How lengths and integers may be written. -/
structure Rules where
  LengthOctets : List UInt8 → Nat → Prop
  IntegerContents : List UInt8 → Int → Prop

/-- A short length is one octet; before a long one stands the number of its octets. -/
inductive DefiniteLength : List UInt8 → Nat → Prop where
  | short {first : UInt8} (small : first < 0x80) : DefiniteLength [first] first.toNat
  | long {octets : List UInt8} (given : octets ≠ []) (few : octets.length < 127) :
      DefiniteLength (UInt8.ofNat (128 + octets.length) :: octets) (bigEndian octets)

def TwosComplement (contents : List UInt8) (value : Int) : Prop := contents ≠ [] ∧ signed contents = value

/-- Among the texts of a value, one that is no longer than the others. -/
structure Shortest {α : Type} (writes : List UInt8 → α → Prop) (octets : List UInt8) (value : α) : Prop where
  isText : writes octets value
  fewest : ∀ other, writes other value → octets.length ≤ other.length

/-- The basic encoding rules, with definite lengths. -/
def ber : Rules where
  LengthOctets := DefiniteLength
  IntegerContents := TwosComplement

/-- The distinguished encoding rules. -/
def der : Rules where
  LengthOctets := Shortest DefiniteLength
  IntegerContents := Shortest TwosComplement

namespace Rules

variable (rules : Rules)

def Element (tag : UInt8) (bytes contents : List UInt8) : Prop :=
  ∃ octets, rules.LengthOctets octets contents.length ∧ bytes = tag :: (octets ++ contents)

def Integer (bytes : List UInt8) (value : Int) : Prop :=
  ∃ contents, rules.IntegerContents contents value ∧ rules.Element 0x02 bytes contents

def IntegerSequence (bytes : List UInt8) (values : List Int) : Prop :=
  ∃ parts, List.Forall₂ rules.Integer parts values ∧ rules.Element 0x30 bytes parts.flatten

end Rules

/-! ## Lengths -/

/-- The rules as one checks them: a long length needs its octets, and its first one. -/
theorem shortest_long_iff {octets : List UInt8} (given : octets ≠ []) (few : octets.length < 127) :
    Shortest DefiniteLength (UInt8.ofNat (128 + octets.length) :: octets) (bigEndian octets) ↔
      128 ≤ bigEndian octets ∧ octets.head? ≠ some 0 := by
  constructor
  · intro shortest
    have large : 128 ≤ bigEndian octets := by
      -- one octet would be enough
      by_contra small
      have value := toNat_ofNat (bigEndian octets) (by omega)
      have other : DefiniteLength [UInt8.ofNat (bigEndian octets)] (bigEndian octets) := by
        have small : UInt8.ofNat (bigEndian octets) < 0x80 := by
          rw [UInt8.lt_iff_toNat_lt, value]
          exact Nat.lt_of_not_le small
        have short := DefiniteLength.short small
        rwa [value] at short
      have fewest := shortest.fewest _ other
      have some := List.length_pos_iff.mpr given
      simp only [List.length_cons, List.length_nil] at fewest
      omega
    refine ⟨large, fun zero => ?_⟩
    -- the octets after the zero would be enough
    obtain ⟨rest, rfl⟩ : ∃ rest, octets = 0 :: rest := by
      cases octets with
      | nil => exact absurd rfl given
      | cons first rest =>
        simp only [List.head?_cons, Option.some.injEq] at zero
        exact ⟨rest, by rw [zero]⟩
    have same : bigEndian (0 :: rest) = bigEndian rest := by simp [bigEndian]
    have restGiven : rest ≠ [] := by
      rintro rfl
      rw [same] at large
      exact absurd large (by decide)
    simp only [List.length_cons] at few
    have other := DefiniteLength.long restGiven (by omega)
    rw [← same] at other
    have fewest := shortest.fewest _ other
    simp only [List.length_cons] at fewest
    omega
  · rintro ⟨large, notZero⟩
    refine ⟨.long given few, fun other isText => ?_⟩
    generalize isLength : bigEndian octets = length at isText large
    cases isText with
    | @short first small =>
      rw [UInt8.lt_iff_toNat_lt] at small
      exact absurd small (by simpa using large)
    | @long octets' given' few' =>
      cases octets with
      | nil => exact absurd rfl given
      | cons first rest =>
        have lower : 256 ^ rest.length ≤ bigEndian (first :: rest) := le_bigEndian rest (by simpa using notZero)
        have upper := bigEndian_lt octets'
        rw [← isLength] at upper
        have shorter := (Nat.pow_lt_pow_iff_right (by omega)).mp (Nat.lt_of_le_of_lt lower upper)
        simp only [List.length_cons]
        omega

theorem shortest_short {first : UInt8} (small : first < 0x80) :
    Shortest DefiniteLength [first] first.toNat := by
  refine ⟨.short small, fun other isText => ?_⟩
  generalize first.toNat = length at isText
  cases isText with
  | short _ => exact Nat.le_refl 1
  | long _ _ => simp

/-- Lengths that are larger do not have fewer octets. -/
theorem lengthOctets_mono {octets octets' : List UInt8} {length length' : Nat}
    (shortest : Shortest DefiniteLength octets length) (other : DefiniteLength octets' length')
    (less : length ≤ length') : octets.length ≤ octets'.length := by
  -- the smaller length fits in as many octets as the larger one
  suffices ∃ padded, DefiniteLength padded length ∧ padded.length = octets'.length by
    obtain ⟨padded, isText, sameLength⟩ := this
    rw [← sameLength]
    exact shortest.fewest padded isText
  cases other with
  | @short first small =>
    have value := toNat_ofNat length (Nat.lt_of_le_of_lt less first.toNat_lt)
    refine ⟨[UInt8.ofNat length], ?_, rfl⟩
    have stillSmall : UInt8.ofNat length < 0x80 := by
      rw [UInt8.lt_iff_toNat_lt] at small ⊢
      rw [value]
      exact Nat.lt_of_le_of_lt less small
    have short := DefiniteLength.short stillSmall
    rwa [value] at short
  | @long octets given few =>
    obtain ⟨padded, sameLength, value⟩ := exists_bigEndian (Nat.lt_of_le_of_lt less (bigEndian_lt octets))
    have padding : padded ≠ [] := by
      rw [← List.length_pos_iff, sameLength]
      exact List.length_pos_iff.mpr given
    refine ⟨_, value ▸ DefiniteLength.long padding (by omega), ?_⟩
    simp [sameLength]

/-! ## Integers -/

theorem signed_of_lt {first : UInt8} (rest : List UInt8) (positive : first < 0x80) :
    signed (first :: rest) = bigEndian (first :: rest) := by
  rw [signed, if_pos positive, bigEndian, Int.natCast_add, Int.natCast_mul]

theorem signed_of_not_lt {first : UInt8} (rest : List UInt8) (negative : ¬ first < 0x80) :
    signed (first :: rest) = bigEndian (first :: rest) - (256 ^ (rest.length + 1) : Nat) := by
  rw [signed, if_neg negative, bigEndian, Int.natCast_add, Int.natCast_mul, Int.sub_mul, Nat.pow_succ,
    Int.natCast_mul, Int.mul_comm _ ((256 : Nat) : Int)]
  omega

/-- The numbers of so many octets. -/
theorem signed_range (first : UInt8) (rest : List UInt8) :
    -(128 * 256 ^ rest.length : Nat) ≤ signed (first :: rest) ∧
      signed (first :: rest) < (128 * 256 ^ rest.length : Nat) := by
  have lower := bigEndian_lt rest
  have digit := first.toNat_lt
  by_cases positive : first < 0x80
  · rw [signed_of_lt rest positive, bigEndian]
    rw [UInt8.lt_iff_toNat_lt] at positive
    have highest := Nat.mul_le_mul_right (256 ^ rest.length) (Nat.succ_le_of_lt positive)
    rw [Nat.succ_mul] at highest
    simp only [UInt8.toNat_ofNat, Nat.reducePow, Nat.reduceMod] at highest
    omega
  · rw [signed_of_not_lt rest positive, bigEndian, Nat.pow_succ]
    rw [UInt8.lt_iff_toNat_lt] at positive
    have least := Nat.mul_le_mul_right (256 ^ rest.length) (Nat.le_of_not_lt positive)
    have most := Nat.mul_le_mul_right (256 ^ rest.length) (Nat.succ_le_of_lt digit)
    rw [Nat.succ_mul] at most
    simp only [UInt8.toNat_ofNat, Nat.reducePow, Nat.reduceMod] at least most
    omega

/-- The first octet only repeats the sign of the second. -/
def Redundant (first second : UInt8) : Prop :=
  (first = 0 ∧ second < 0x80) ∨ (first = 0xFF ∧ ¬ second < 0x80)

instance (first second : UInt8) : Decidable (Redundant first second) :=
  inferInstanceAs (Decidable (_ ∨ _))

theorem signed_redundant {first second : UInt8} (rest : List UInt8) (redundant : Redundant first second) :
    signed (first :: second :: rest) = signed (second :: rest) := by
  rcases redundant with ⟨rfl, positive⟩ | ⟨rfl, negative⟩
  · rw [signed_of_lt _ (by decide), signed_of_lt _ positive]
    simp [bigEndian]
  · rw [signed_of_not_lt _ (by decide), signed_of_not_lt _ negative, bigEndian_cons 0xFF]
    have maximal : (0xFF : UInt8).toNat = 255 := rfl
    simp only [maximal, List.length_cons, Nat.pow_succ]
    omega

/-- Without it the number would not fit. -/
theorem signed_outside {first second : UInt8} (rest : List UInt8) (needed : ¬ Redundant first second) :
    signed (first :: second :: rest) < -(128 * 256 ^ rest.length : Nat) ∨
      (128 * 256 ^ rest.length : Nat) ≤ signed (first :: second :: rest) := by
  have lower := bigEndian_lt rest
  by_cases positive : first < 0x80
  · rw [signed_of_lt _ positive]
    by_cases zero : first = 0
    · have large : ¬ second < 0x80 := fun small => needed (.inl ⟨zero, small⟩)
      rw [UInt8.lt_iff_toNat_lt] at large
      have digit := Nat.mul_le_mul_right (256 ^ rest.length) (Nat.le_of_not_lt large)
      simp only [UInt8.toNat_ofNat, Nat.reducePow, Nat.reduceMod] at digit
      rw [bigEndian, bigEndian]
      omega
    · have large : 256 ^ (rest.length + 1) ≤ _ := le_bigEndian (second :: rest) zero
      rw [Nat.pow_succ] at large
      omega
  · rw [signed_of_not_lt _ positive]
    have tail := bigEndian_lt (second :: rest)
    by_cases maximal : first = 0xFF
    · have small : second < 0x80 := Decidable.byContradiction fun large => needed (.inr ⟨maximal, large⟩)
      rw [UInt8.lt_iff_toNat_lt] at small
      have digit := Nat.mul_le_mul_right (256 ^ rest.length) (Nat.succ_le_of_lt small)
      have isMaximal : first.toNat = 255 := by rw [maximal]; rfl
      rw [Nat.succ_mul] at digit
      simp only [UInt8.toNat_ofNat, Nat.reducePow, Nat.reduceMod] at digit
      simp only [bigEndian_cons, isMaximal, List.length_cons, Nat.pow_succ]
      omega
    · have notMaximal : first.toNat ≠ 255 := fun same => maximal (UInt8.toNat_inj.mp same)
      have digit := first.toNat_lt
      have most := Nat.mul_le_mul_right (256 ^ (rest.length + 1)) (show first.toNat ≤ 254 by omega)
      simp only [List.length_cons, Nat.pow_succ] at tail most
      simp only [bigEndian_cons first, List.length_cons, Nat.pow_succ]
      omega

theorem shortest_integer_iff (first second : UInt8) (rest : List UInt8) (value : Int) :
    Shortest TwosComplement (first :: second :: rest) value ↔
      signed (first :: second :: rest) = value ∧ ¬ Redundant first second := by
  constructor
  · rintro ⟨⟨_, isValue⟩, fewest⟩
    refine ⟨isValue, fun redundant => ?_⟩
    have shorter := fewest (second :: rest) ⟨by simp, by rw [← signed_redundant rest redundant, isValue]⟩
    simp only [List.length_cons] at shorter
    omega
  · rintro ⟨isValue, needed⟩
    refine ⟨⟨by simp, isValue⟩, fun other ⟨given, sameValue⟩ => ?_⟩
    have outside := signed_outside rest needed
    rw [isValue, ← sameValue] at outside
    cases other with
    | nil => exact absurd rfl given
    | cons first' rest' =>
      by_contra fewer
      simp only [List.length_cons] at fewer
      have range := signed_range first' rest'
      have weights : 256 ^ rest'.length ≤ 256 ^ rest.length := Nat.pow_le_pow_right (by omega) (by omega)
      omega

theorem shortest_integer_singleton (first : UInt8) (value : Int) :
    Shortest TwosComplement [first] value ↔ signed [first] = value := by
  constructor
  · intro shortest
    exact shortest.isText.2
  · intro isValue
    exact ⟨⟨by simp, isValue⟩, fun other isText => List.length_pos_iff.mpr isText.1⟩

/-! ## The size of an encoding -/

theorem element_length_le {tag : UInt8} {bytes other contents contents' : List UInt8}
    (shortest : der.Element tag bytes contents) (longer : ber.Element tag other contents')
    (less : contents.length ≤ contents'.length) : bytes.length ≤ other.length := by
  obtain ⟨octets, isShortest, rfl⟩ := shortest
  obtain ⟨octets', isText, rfl⟩ := longer
  have lengths := lengthOctets_mono isShortest isText less
  simp only [List.length_cons, List.length_append]
  omega

theorem integers_length_le {parts others : List (List UInt8)} {values : List Int}
    (shortest : List.Forall₂ der.Integer parts values) (longer : List.Forall₂ ber.Integer others values) :
    parts.flatten.length ≤ others.flatten.length := by
  induction shortest generalizing others with
  | nil => simp
  | cons first _ inductionHypothesis =>
    cases longer with
    | cons first' rest' =>
      obtain ⟨contents, isShortest, element⟩ := first
      obtain ⟨contents', isText, element'⟩ := first'
      have heads := element_length_le element element' (isShortest.fewest contents' isText)
      have tails := inductionHypothesis rest'
      simp only [List.flatten_cons, List.length_append]
      omega

/-- No encoding of the integers by the basic rules is shorter. -/
theorem der_length_le {bytes other : List UInt8} {values : List Int}
    (shortest : der.IntegerSequence bytes values) (longer : ber.IntegerSequence other values) :
    bytes.length ≤ other.length := by
  obtain ⟨parts, integers, element⟩ := shortest
  obtain ⟨parts', integers', element'⟩ := longer
  exact element_length_le element element' (integers_length_le integers integers')

/-! ## A strict reader -/

/-- The reader takes exactly the texts of the grammar off the front. -/
def Reads {α : Type} (reader : List UInt8 → Option (α × List UInt8)) (grammar : List UInt8 → α → Prop) : Prop :=
  ∀ bytes value rest, reader bytes = some (value, rest) ↔
    ∃ text, grammar text value ∧ bytes = text ++ rest

def readLength : List UInt8 → Option (Nat × List UInt8)
  | [] => none
  | first :: rest =>
    if first < 0x80 then some (first.toNat, rest)
    else
      let count := first.toNat - 128
      let octets := rest.take count
      if octets = [] ∨ count = 127 ∨ rest.length < count ∨ bigEndian octets < 128 ∨ octets.head? = some 0 then none
      else some (bigEndian octets, rest.drop count)

def readElement (tag : UInt8) : List UInt8 → Option (List UInt8 × List UInt8)
  | [] => none
  | first :: rest =>
    if first ≠ tag then none
    else
      match readLength rest with
      | some (length, rest) =>
        if rest.length < length then none else some (rest.take length, rest.drop length)
      | none => none

def integerValue : List UInt8 → Option Int
  | [] => none
  | [first] => some (signed [first])
  | first :: second :: rest =>
    if Redundant first second then none else some (signed (first :: second :: rest))

def readInteger (bytes : List UInt8) : Option (Int × List UInt8) :=
  match readElement 0x02 bytes with
  | some (contents, rest) => (integerValue contents).map fun value => (value, rest)
  | none => none

def readIntegers : Nat → List UInt8 → Option (List Int × List UInt8)
  | 0, bytes => some ([], bytes)
  | count + 1, bytes =>
    match readInteger bytes with
    | some (value, rest) => (readIntegers count rest).map fun (values, rest) => (value :: values, rest)
    | none => none

/-- A sequence of so many integers, with nothing after them in it and nothing after it. -/
def decodeIntegers (count : Nat) (bytes : List UInt8) : Option (List Int) :=
  match readElement 0x30 bytes with
  | some (contents, []) =>
    match readIntegers count contents with
    | some (values, []) => some values
    | _ => none
  | _ => none

theorem readLength_reads : Reads readLength der.LengthOctets := by
  intro bytes length rest
  constructor
  · intro read
    cases bytes with
    | nil => cases read
    | cons first after =>
      rw [readLength] at read
      split at read
      · rename_i small
        obtain ⟨rfl, rfl⟩ : first.toNat = length ∧ after = rest := by simpa using read
        exact ⟨[first], shortest_short small, rfl⟩
      · rename_i large
        dsimp only at read
        split at read
        · cases read
        · rename_i accepted
          simp only [not_or] at accepted
          obtain ⟨given, few, enough, needed, notZero⟩ := accepted
          obtain ⟨rfl, rfl⟩ : bigEndian (after.take (first.toNat - 128)) = length ∧
              after.drop (first.toNat - 128) = rest := by simpa using read
          have digit := first.toNat_lt
          have count : (after.take (first.toNat - 128)).length = first.toNat - 128 :=
            List.length_take_of_le (Nat.le_of_not_lt enough)
          have isFirst : UInt8.ofNat (128 + (after.take (first.toNat - 128)).length) = first := by
            rw [UInt8.lt_iff_toNat_lt] at large
            have least := Nat.le_of_not_lt large
            simp only [UInt8.toNat_ofNat, Nat.reducePow, Nat.reduceMod] at least
            rw [count, Nat.add_sub_cancel' least, UInt8.ofNat_toNat]
          have isShortest := (shortest_long_iff given (by omega)).mpr
            ⟨Nat.le_of_not_lt needed, notZero⟩
          rw [isFirst] at isShortest
          exact ⟨_, isShortest, by simp⟩
  · rintro ⟨text, shortest, rfl⟩
    have isText := shortest.isText
    cases isText with
    | @short first small => simp [readLength, small]
    | @long octets given few =>
      obtain ⟨large, notZero⟩ := (shortest_long_iff given few).mp shortest
      have value := toNat_ofNat (128 + octets.length) (by omega)
      have notShort : ¬ UInt8.ofNat (128 + octets.length) < 0x80 := by
        rw [UInt8.lt_iff_toNat_lt, value]
        simp
      simp only [List.cons_append, readLength, if_neg notShort, value, Nat.add_sub_cancel_left]
      have accepted : ¬ (octets = [] ∨ octets.length = 127 ∨ (octets ++ rest).length < octets.length ∨
          bigEndian octets < 128 ∨ octets.head? = some 0) := by
        simp only [not_or, List.length_append]
        exact ⟨given, by omega, by omega, by omega, notZero⟩
      simp only [List.take_left, List.drop_left, if_neg accepted]

theorem integerValue_eq_some (contents : List UInt8) (value : Int) :
    integerValue contents = some value ↔ der.IntegerContents contents value := by
  match contents with
  | [] =>
    constructor
    · intro none
      cases none
    · intro shortest
      exact absurd rfl shortest.isText.1
  | [first] =>
    simp only [integerValue, Option.some.injEq]
    exact (shortest_integer_singleton first value).symm
  | first :: second :: rest =>
    have shortest : der.IntegerContents (first :: second :: rest) value ↔ _ :=
      shortest_integer_iff first second rest value
    rw [shortest, integerValue]
    split
    · rename_i redundant
      simp [redundant]
    · rename_i needed
      simp [needed]

theorem readElement_reads (tag : UInt8) :
    Reads (readElement tag) fun bytes contents => der.Element tag bytes contents := by
  intro bytes contents rest
  constructor
  · intro read
    cases bytes with
    | nil => cases read
    | cons first after =>
      rw [readElement] at read
      split at read
      · cases read
      · rename_i isTag
        rw [not_not] at isTag
        split at read
        · rename_i length after' isLength
          obtain ⟨octets, shortest, rfl⟩ := (readLength_reads _ _ _).mp isLength
          split at read
          · cases read
          · rename_i enough
            simp only [Option.some.injEq, Prod.mk.injEq] at read
            obtain ⟨rfl, rfl⟩ := read
            have size : (after'.take length).length = length := List.length_take_of_le (Nat.le_of_not_lt enough)
            exact ⟨tag :: (octets ++ after'.take length), ⟨octets, by rwa [size], rfl⟩, by simp [isTag]⟩
        · cases read
  · rintro ⟨text, ⟨octets, shortest, rfl⟩, rfl⟩
    have isLength : readLength (octets ++ (contents ++ rest)) = some (contents.length, contents ++ rest) :=
      (readLength_reads _ _ _).mpr ⟨octets, shortest, rfl⟩
    simp [readElement, isLength]

theorem readInteger_reads : Reads readInteger der.Integer := by
  intro bytes value rest
  constructor
  · intro read
    unfold readInteger at read
    split at read
    · rename_i contents after isElement
      obtain ⟨text, element, rfl⟩ := (readElement_reads 0x02 _ _ _).mp isElement
      simp only [Option.map_eq_some_iff, Prod.mk.injEq] at read
      obtain ⟨value', isValue, rfl, rfl⟩ := read
      exact ⟨text, ⟨contents, (integerValue_eq_some contents value').mp isValue, element⟩, rfl⟩
    · cases read
  · rintro ⟨text, ⟨contents, isValue, element⟩, rfl⟩
    have isElement := (readElement_reads 0x02 _ _ rest).mpr ⟨text, element, rfl⟩
    have isInteger := (integerValue_eq_some contents value).mpr isValue
    simp [readInteger, isElement, isInteger]

theorem readIntegers_reads (count : Nat) :
    Reads (readIntegers count) fun bytes values =>
      values.length = count ∧ ∃ parts, List.Forall₂ der.Integer parts values ∧ bytes = parts.flatten := by
  induction count with
  | zero =>
    intro bytes values rest
    constructor
    · intro read
      simp only [readIntegers, Option.some.injEq, Prod.mk.injEq] at read
      obtain ⟨rfl, rfl⟩ := read
      exact ⟨[], ⟨rfl, [], .nil, rfl⟩, rfl⟩
    · rintro ⟨text, ⟨none, parts, integers, rfl⟩, rfl⟩
      obtain rfl := List.eq_nil_of_length_eq_zero none
      cases integers
      rfl
  | succ count inductionHypothesis =>
    intro bytes values rest
    constructor
    · intro read
      rw [readIntegers] at read
      split at read
      · rename_i value after isInteger
        obtain ⟨text, integer, rfl⟩ := (readInteger_reads _ _ _).mp isInteger
        simp only [Option.map_eq_some_iff, Prod.mk.injEq] at read
        obtain ⟨⟨values', rest'⟩, isRest, rfl, rfl⟩ := read
        obtain ⟨_, ⟨length, parts, integers, rfl⟩, rfl⟩ := (inductionHypothesis _ _ _).mp isRest
        exact ⟨text ++ parts.flatten, ⟨by simp [length], text :: parts, .cons integer integers, rfl⟩, by simp⟩
      · cases read
    · rintro ⟨text, ⟨length, parts, integers, rfl⟩, rfl⟩
      cases integers with
      | nil => cases length
      | @cons part value parts values' integer integers =>
        have isInteger : readInteger (part ++ (parts.flatten ++ rest)) = some (value, parts.flatten ++ rest) :=
          (readInteger_reads _ _ _).mpr ⟨part, integer, rfl⟩
        have isRest : readIntegers count (parts.flatten ++ rest) = some (values', rest) :=
          (inductionHypothesis _ _ _).mpr ⟨_, ⟨by simpa using length, parts, integers, rfl⟩, rfl⟩
        simp [readIntegers, isInteger, isRest]

/-- The strict reader accepts the sequences of the distinguished rules and nothing else. -/
theorem decodeIntegers_iff (count : Nat) (bytes : List UInt8) (values : List Int) :
    decodeIntegers count bytes = some values ↔
      values.length = count ∧ der.IntegerSequence bytes values := by
  constructor
  · intro decoded
    unfold decodeIntegers at decoded
    split at decoded
    · rename_i contents isElement
      obtain ⟨text, element, rfl⟩ := (readElement_reads 0x30 _ _ _).mp isElement
      split at decoded
      · rename_i values' isIntegers
        cases decoded
        obtain ⟨_, ⟨length, parts, integers, rfl⟩, rfl⟩ := (readIntegers_reads count _ _ _).mp isIntegers
        exact ⟨length, parts, integers, by simpa using element⟩
      · cases decoded
    · cases decoded
  · rintro ⟨length, parts, integers, element⟩
    have isElement := (readElement_reads 0x30 _ _ []).mpr ⟨bytes, element, (List.append_nil bytes).symm⟩
    have isIntegers := (readIntegers_reads count _ _ []).mpr
      ⟨parts.flatten, ⟨length, parts, integers, rfl⟩, (List.append_nil parts.flatten).symm⟩
    simp [decodeIntegers, isElement, isIntegers]

/-- The bytes determine how many integers there are and which. -/
theorem integers_unique {parts parts' : List (List UInt8)} {values values' : List Int}
    (integers : List.Forall₂ der.Integer parts values) (integers' : List.Forall₂ der.Integer parts' values')
    (same : parts.flatten = parts'.flatten) : values = values' := by
  have notEmpty {part : List UInt8} {value : Int} (integer : der.Integer part value) (rest : List UInt8) :
      part ++ rest ≠ [] := by
    obtain ⟨_, _, _, _, rfl⟩ := integer
    simp
  induction integers generalizing parts' values' with
  | nil =>
    cases integers' with
    | nil => rfl
    | cons integer' _ => exact absurd same.symm (notEmpty integer' _)
  | @cons part value parts values integer integers inductionHypothesis =>
    cases integers' with
    | nil => exact absurd same (notEmpty integer _)
    | @cons part' value' parts' values' integer' integers' =>
      have read := (readInteger_reads _ value parts.flatten).mpr ⟨part, integer, rfl⟩
      have read' := (readInteger_reads _ value' parts'.flatten).mpr ⟨part', integer', rfl⟩
      rw [List.flatten_cons, List.flatten_cons] at same
      rw [same, read'] at read
      simp only [Option.some.injEq, Prod.mk.injEq] at read
      rw [read.1, inductionHypothesis integers' read.2.symm]

theorem integerSequence_unique {bytes : List UInt8} {values values' : List Int}
    (sequence : der.IntegerSequence bytes values) (sequence' : der.IntegerSequence bytes values') :
    values = values' := by
  obtain ⟨parts, integers, element⟩ := sequence
  obtain ⟨parts', integers', element'⟩ := sequence'
  have read := (readElement_reads 0x30 _ _ []).mpr ⟨bytes, element, rfl⟩
  have read' := (readElement_reads 0x30 _ _ []).mpr ⟨bytes, element', rfl⟩
  rw [read'] at read
  simp only [Option.some.injEq, Prod.mk.injEq, and_true] at read
  exact integers_unique integers integers' read.symm

end Data.Der
