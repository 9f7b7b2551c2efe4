import SpectraGQL.Data.Der
import SpectraGQL.Interceptors.Tokens
import Mathlib.Data.Nat.Bitwise

/-! # The encoding of RSA keys (`interceptors/auth.rs`, `rsa_components_to_der`)

A key set gives an RSA key as two byte strings, its modulus and its exponent; the verifier takes
them as one PKCS#1 structure, a sequence of two integers.  `Data.Der` says what a sequence is by
the distinguished rules: the bytes here are the one for the two numbers
(`rsaComponentsToDer_roundTrip`), so a provider with a static key verifies with the numbers it
was given (`staticRsa_key`).
-/

namespace SpectraGQL.Interceptors

open SpectraGQL.Http Data.Der

/-- A length pushed after `out`; a cast to a byte keeps the lowest eight bits. -/
def encodeDerLength (out : Bytes) (len : Nat) : Bytes :=
  if len < 128 then out ++ [UInt8.ofNat len]
  else if len < 256 then out ++ [0x81, UInt8.ofNat len]
  else out ++ [0x82, UInt8.ofNat (len >>> 8), UInt8.ofNat (len &&& 0xff)]

/-- The first byte would be read as a negative one. -/
def needsLeadingZero (bytes : Bytes) : Bool := bytes.head?.any fun first => first &&& 0x80 ≠ 0

def encodeDerInteger (bytes : Bytes) : Bytes :=
  let len := bytes.length + if needsLeadingZero bytes then 1 else 0
  let out := encodeDerLength [0x02] len
  (if needsLeadingZero bytes then out ++ [0x00] else out) ++ bytes

/-- Converts a raw RSA modulus and exponent into the PKCS#1 format. -/
def rsaComponentsToDer (n e : Bytes) : Bytes :=
  let intN := encodeDerInteger n
  let intE := encodeDerInteger e
  let totalLen := intN.length + intE.length
  encodeDerLength [0x30] totalLen ++ intN ++ intE

def AuthProvider.staticRsa (crates : JwtCrates) (kid : Option String) (nB64url eB64url : String) :
    Except String AuthProvider := do
  let n ← withContext "Invalid RSA modulus 'n': " (crates.decodeB64url nB64url)
  let e ← withContext "Invalid RSA exponent 'e': " (crates.decodeB64url eB64url)
  return .staticKey kid (.rsaPkcs1 (rsaComponentsToDer n e))

/-- The length octets of the source, without what stands before them. -/
theorem encodeDerLength_eq (out : Bytes) (len : Nat) :
    encodeDerLength out len = out ++ encodeDerLength [] len := by
  unfold encodeDerLength
  split
  · rfl
  · split
    · simp
    · simp

theorem ofNat_ne_zero (number : Nat) (positive : 0 < number) (small : number < 256) :
    UInt8.ofNat number ≠ 0 := by
  intro zero
  have value := congrArg UInt8.toNat zero
  rw [toNat_ofNat number small] at value
  exact absurd value (Nat.ne_of_gt positive)

/-- A length below the limit of two octets is written as the rules ask: each branch begins where
    the one before it has no octets left. -/
theorem encodeDerLength_der {len : Nat} (fits : len < 65536) :
    der.LengthOctets (encodeDerLength [] len) len := by
  have long (octets : Bytes) (given : octets ≠ []) (few : octets.length < 127) (large : 128 ≤ len)
      (isLen : bigEndian octets = len) (notZero : octets.head? ≠ some 0) :
      der.LengthOctets (UInt8.ofNat (128 + octets.length) :: octets) len := by
    have shortest := (shortest_long_iff given few).mpr ⟨by omega, notZero⟩
    rwa [isLen] at shortest
  unfold encodeDerLength
  split
  · rename_i small
    have value := toNat_ofNat len (by omega)
    have isSmall : UInt8.ofNat len < 0x80 := by
      rw [UInt8.lt_iff_toNat_lt, value]
      exact small
    have short := shortest_short isSmall
    rwa [value] at short
  · rename_i notShort
    split
    · rename_i small
      have value := toNat_ofNat len small
      exact long [UInt8.ofNat len] (by simp) (by simp) (by omega) (by simp [bigEndian, value])
        (by simpa using ofNat_ne_zero len (by omega) small)
    · rename_i notOne
      have high : len >>> 8 = len / 256 := Nat.shiftRight_eq_div_pow len 8
      have low : len &&& 0xff = len % 256 := Nat.and_two_pow_sub_one_eq_mod len 8
      have highValue := toNat_ofNat (len / 256) (by omega)
      have lowValue := toNat_ofNat (len % 256) (by omega)
      rw [high, low]
      refine long [UInt8.ofNat (len / 256), UInt8.ofNat (len % 256)] (by simp) (by simp) (by omega) ?_ ?_
      · simp only [bigEndian, highValue, lowValue, List.length_cons, List.length_nil]
        omega
      · simpa using ofNat_ne_zero (len / 256) (by omega) (by omega)

/-- The sign bit of a byte. -/
theorem and_signBit (first : UInt8) : first &&& 0x80 = 0 ↔ first < 0x80 := by
  have digit := first.toNat_lt
  have zero : (0 : UInt8).toNat = 0 := rfl
  have signBit : (0x80 : UInt8).toNat = 128 := rfl
  have masked : (first &&& 0x80).toNat = (first.toNat.testBit 7).toNat * 2 ^ 7 :=
    Nat.and_two_pow first.toNat 7
  rw [Nat.testBit_eq_decide_div_mod_eq] at masked
  rw [← UInt8.toNat_inj, UInt8.lt_iff_toNat_lt, masked]
  by_cases high : first.toNat / 2 ^ 7 % 2 = 1
  · simp only [high, decide_true, Bool.toNat_true, zero, signBit]
    omega
  · simp only [high, decide_false, Bool.toNat_false, zero, signBit]
    omega

theorem needsLeadingZero_cons (first : UInt8) (rest : Bytes) :
    needsLeadingZero (first :: rest) = true ↔ ¬ first < 0x80 := by
  rw [← and_signBit]
  simp [needsLeadingZero]

def integerContents (bytes : Bytes) : Bytes := if needsLeadingZero bytes then 0x00 :: bytes else bytes

theorem encodeDerInteger_eq (bytes : Bytes) :
    encodeDerInteger bytes =
      0x02 :: (encodeDerLength [] (integerContents bytes).length ++ integerContents bytes) := by
  unfold encodeDerInteger integerContents
  dsimp only
  rw [encodeDerLength_eq [0x02]]
  by_cases needed : needsLeadingZero bytes
  · simp [needed]
  · simp [needed]

/-- What the claims of a key set are to be: a number without zeros in front of it. -/
structure Unpadded (bytes : Bytes) : Prop where
  given : bytes ≠ []
  notZero : bytes.head? ≠ some 0

/-- The contents are the shortest for the number that the bytes denote. -/
theorem integerContents_der {bytes : Bytes} (unpadded : Unpadded bytes) :
    der.IntegerContents (integerContents bytes) (bigEndian bytes) := by
  cases bytes with
  | nil => exact absurd rfl unpadded.given
  | cons first rest =>
    have firstNotZero : first ≠ 0 := by simpa using unpadded.notZero
    rw [← integerValue_eq_some]
    by_cases positive : first < 0x80
    · have notNeeded : needsLeadingZero (first :: rest) = false :=
        eq_false_of_ne_true (mt (needsLeadingZero_cons first rest).mp (not_not.mpr positive))
      rw [integerContents, notNeeded, if_neg Bool.false_ne_true, ← signed_of_lt rest positive]
      cases rest with
      | nil => rfl
      | cons second rest =>
        -- neither a zero nor the mark of a negative number comes first
        have short : ¬ Redundant first second := by
          rintro (⟨zero, _⟩ | ⟨rfl, _⟩)
          · exact firstNotZero zero
          · exact absurd positive (by decide)
        rw [integerValue, if_neg short]
    · -- the zero keeps the first byte from being read as a sign
      have short : ¬ Redundant 0 first := by
        rintro (⟨_, small⟩ | ⟨zero, _⟩)
        · exact positive small
        · exact absurd zero (by decide)
      rw [integerContents, if_pos ((needsLeadingZero_cons first rest).mpr positive), integerValue,
        if_neg short, signed_of_lt _ (by decide), bigEndian_cons 0]
      simp

theorem encodeDerInteger_der {bytes : Bytes} (unpadded : Unpadded bytes)
    (fits : (encodeDerInteger bytes).length < 65536) :
    der.Integer (encodeDerInteger bytes) (bigEndian bytes) := by
  rw [encodeDerInteger_eq] at fits ⊢
  simp only [List.length_cons, List.length_append] at fits
  exact ⟨integerContents bytes, integerContents_der unpadded, _, encodeDerLength_der (by omega), rfl⟩

/-- The leading zero moves a length across a boundary. -/
example (bytes : Bytes) (length : bytes.length = 127) (needed : needsLeadingZero bytes) :
    (encodeDerInteger bytes).take 4 = [0x02, 0x81, 0x80, 0x00] := by
  simp [encodeDerInteger, encodeDerLength, length, needed]

section Components

variable {n e : Bytes}

theorem rsaComponentsToDer_der (nUnpadded : Unpadded n) (eUnpadded : Unpadded e)
    (fits : (encodeDerInteger n).length + (encodeDerInteger e).length < 65536) :
    der.IntegerSequence (rsaComponentsToDer n e) [bigEndian n, bigEndian e] := by
  have parts : List.Forall₂ der.Integer [encodeDerInteger n, encodeDerInteger e]
      [(bigEndian n : Int), (bigEndian e : Int)] :=
    .cons (encodeDerInteger_der nUnpadded (by omega))
      (.cons (encodeDerInteger_der eUnpadded (by omega)) .nil)
  have total : [encodeDerInteger n, encodeDerInteger e].flatten.length =
      (encodeDerInteger n).length + (encodeDerInteger e).length := by simp
  refine ⟨_, parts, encodeDerLength [] ((encodeDerInteger n).length + (encodeDerInteger e).length), ?_, ?_⟩
  · rw [total]
    exact encodeDerLength_der fits
  · unfold rsaComponentsToDer
    dsimp only
    rw [encodeDerLength_eq [0x30]]
    simp

/-- The bytes are the shortest for the two numbers, and a strict reader finds the two numbers and
    nothing else in them. -/
theorem rsaComponentsToDer_roundTrip (nUnpadded : Unpadded n) (eUnpadded : Unpadded e)
    (fits : (encodeDerInteger n).length + (encodeDerInteger e).length < 65536) :
    der.IntegerSequence (rsaComponentsToDer n e) [bigEndian n, bigEndian e] ∧
      (∀ other, ber.IntegerSequence other [bigEndian n, bigEndian e] →
        (rsaComponentsToDer n e).length ≤ other.length) ∧
      ∀ count values, decodeIntegers count (rsaComponentsToDer n e) = some values ↔
        count = 2 ∧ values = [(bigEndian n : Int), (bigEndian e : Int)] := by
  have isSequence := rsaComponentsToDer_der nUnpadded eUnpadded fits
  refine ⟨isSequence, fun other isText => der_length_le isSequence isText, fun count values => ?_⟩
  rw [decodeIntegers_iff]
  constructor
  · rintro ⟨length, other⟩
    have same := integerSequence_unique other isSequence
    rw [same] at length
    exact ⟨length.symm, same⟩
  · rintro ⟨rfl, rfl⟩
    exact ⟨rfl, isSequence⟩

/-- A modulus with the highest bit set. -/
theorem rsaComponentsToDer_roundTrip_example :
    rsaComponentsToDer [0xC3, 0x01] [0x01, 0x00, 0x01] =
        [0x30, 0x0A, 0x02, 0x03, 0x00, 0xC3, 0x01, 0x02, 0x03, 0x01, 0x00, 0x01] ∧
      decodeIntegers 2 (rsaComponentsToDer [0xC3, 0x01] [0x01, 0x00, 0x01]) = some [49921, 65537] :=
  ⟨by decide,
    ((rsaComponentsToDer_roundTrip ⟨by decide, by decide⟩ ⟨by decide, by decide⟩ (by decide)).2.2 2 _).mpr
      ⟨rfl, rfl⟩⟩

/-- The key of a provider made from components is read as the numbers of the components. -/
theorem staticRsa_key {crates : JwtCrates} {kid : Option String} {nB64url eB64url : String}
    (nDecoded : crates.decodeB64url nB64url = .ok n) (eDecoded : crates.decodeB64url eB64url = .ok e)
    (nUnpadded : Unpadded n) (eUnpadded : Unpadded e)
    (fits : (encodeDerInteger n).length + (encodeDerInteger e).length < 65536) :
    ∃ derBytes, AuthProvider.staticRsa crates kid nB64url eB64url = .ok (.staticKey kid (.rsaPkcs1 derBytes)) ∧
      decodeIntegers 2 derBytes = some [(bigEndian n : Int), (bigEndian e : Int)] := by
  refine ⟨rsaComponentsToDer n e, ?_, ?_⟩
  · rw [AuthProvider.staticRsa, nDecoded, eDecoded]
    rfl
  · rw [decodeIntegers_iff]
    exact ⟨rfl, rsaComponentsToDer_der nUnpadded eUnpadded fits⟩

end Components

end SpectraGQL.Interceptors
