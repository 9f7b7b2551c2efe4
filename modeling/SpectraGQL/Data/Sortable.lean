import Mathlib.Algebra.Group.Nat.Defs
import Mathlib.Data.Prod.Lex
import Mathlib.Tactic.Common

/-! # Texts that sort as what they stand for

A `SortableWriter` writes values as texts of one length whose lexicographic order is the order
of the values.  Decimal numbers padded with zeros are one (`zeroPadding`), and two writers with a
fixed text between them are one for pairs, which compare by their first halves first
(`SortableWriter.joined`).
-/

namespace Data

/-- Where the first halves have one length, they decide unless they are equal. -/
theorem append_lt_append_iff {α : Type} [LT α] [Std.Irrefl (· < · : α → α → Prop)]
    {first second : List α} (sameLength : first.length = second.length) (rest rest' : List α) :
    first ++ rest < second ++ rest' ↔ first < second ∨ (first = second ∧ rest < rest') := by
  induction first generalizing second with
  | nil =>
    have empty : second = [] := List.eq_nil_of_length_eq_zero sameLength.symm
    simp [empty]
  | cons head tail inductionHypothesis =>
    cases second with
    | nil => simp at sameLength
    | cons head' tail' =>
      have tails : tail.length = tail'.length := by simpa using sameLength
      simp only [List.cons_append, List.cons_lt_cons_iff, inductionHypothesis tails, List.cons.injEq]
      tauto

/-- Writes values as texts of one width, in the order of the values; the width is too small for
    some of them. -/
structure SortableWriter (β : Type) [LT β] where
  Fits : β → Prop
  width : Nat
  write : β → List Char
  length_write : ∀ {value}, Fits value → (write value).length = width
  write_lt_iff : ∀ {first second}, Fits first → Fits second →
    (write first < write second ↔ first < second)

namespace SortableWriter

/-- Different values have different texts: one of the two comes before the other. -/
theorem write_eq_iff {β : Type} [LinearOrder β] (writer : SortableWriter β) {first second : β}
    (firstFits : writer.Fits first) (secondFits : writer.Fits second) :
    writer.write first = writer.write second ↔ first = second := by
  constructor
  · intro same
    have notBefore : ¬ first < second := by
      rw [← writer.write_lt_iff firstFits secondFits, same]
      exact List.lt_irrefl _
    have notAfter : ¬ second < first := by
      rw [← writer.write_lt_iff secondFits firstFits, same]
      exact List.lt_irrefl _
    exact le_antisymm (not_lt.mp notAfter) (not_lt.mp notBefore)
  · intro same
    rw [same]

/-- The texts of two writers with a separator between them. -/
def joined {β γ : Type} [LinearOrder β] [LT γ] (separator : List Char)
    (upper : SortableWriter β) (lower : SortableWriter γ) : SortableWriter (β ×ₗ γ) where
  Fits pair := upper.Fits (ofLex pair).1 ∧ lower.Fits (ofLex pair).2
  width := upper.width + separator.length + lower.width
  write pair := upper.write (ofLex pair).1 ++ separator ++ lower.write (ofLex pair).2
  length_write fits := by
    simp only [List.length_append, upper.length_write fits.1, lower.length_write fits.2]
  write_lt_iff {first second} firstFits secondFits := by
    have uppers : (upper.write (ofLex first).1).length = (upper.write (ofLex second).1).length := by
      rw [upper.length_write firstFits.1, upper.length_write secondFits.1]
    have separated (rest rest' : List Char) : separator ++ rest < separator ++ rest' ↔ rest < rest' := by
      rw [append_lt_append_iff rfl]
      simp
    rw [List.append_assoc, List.append_assoc, append_lt_append_iff uppers, separated,
      upper.write_lt_iff firstFits.1 secondFits.1, upper.write_eq_iff firstFits.1 secondFits.1,
      lower.write_lt_iff firstFits.2 secondFits.2, Prod.Lex.lt_iff]

end SortableWriter

/-! ## Decimal numbers -/

/-- The decimal digits of a number, with zeros in front of them up to the width. -/
def zeroPadded (width number : Nat) : List Char :=
  List.replicate (width - (Nat.toDigits 10 number).length) '0' ++ Nat.toDigits 10 number

def IsDecimal (digits : List Char) : Prop := ∀ digit ∈ digits, digit.isDigit

theorem isDecimal_zeroPadded (width number : Nat) : IsDecimal (zeroPadded width number) := by
  intro digit member
  cases List.mem_append.mp member with
  | inl padding =>
    rw [List.eq_of_mem_replicate padding]
    rfl
  | inr own => exact Nat.isDigit_of_mem_toDigits (by omega) (by omega) own

theorem length_zeroPadded {width number : Nat} (positive : 0 < width) (fits : number < 10 ^ width) :
    (zeroPadded width number).length = width := by
  have short := (Nat.length_toDigits_le_iff (by omega) positive).mpr fits
  simp only [zeroPadded, List.length_append, List.length_replicate]
  omega

/-- The padding does not change the number. -/
theorem ofDigitChars_zeroPadded (width number : Nat) :
    Nat.ofDigitChars 10 (zeroPadded width number) 0 = number := by
  simp [zeroPadded, Nat.ofDigitChars_append]

/-- A number below the weight of a digit never makes up for the digit. -/
theorem weighted_lt_iff {weight high low high' low' : Nat} (below : low < weight) (below' : low' < weight) :
    weight * high + low < weight * high' + low' ↔ high < high' ∨ (high = high' ∧ low < low') := by
  rcases Nat.lt_trichotomy high high' with less | same | more
  · have outweighs := Nat.mul_le_mul_left weight less
    rw [Nat.mul_succ] at outweighs
    omega
  · rw [same]
    omega
  · have outweighs := Nat.mul_le_mul_left weight more
    rw [Nat.mul_succ] at outweighs
    omega

/-- The digits are consecutive characters, from zero on. -/
theorem digit_le_nine {digit : Char} (isDigit : digit.isDigit) :
    digit.toNat = '0'.toNat + (digit.toNat - '0'.toNat) ∧ digit.toNat - '0'.toNat ≤ 9 := by
  have range := Char.isDigit_iff_toNat.mp isDigit
  have nine : '9'.toNat = '0'.toNat + 9 := rfl
  omega

theorem ofDigitChars_lt {digits : List Char} (decimal : IsDecimal digits) :
    Nat.ofDigitChars 10 digits 0 < 10 ^ digits.length := by
  induction digits with
  | nil => simp
  | cons digit rest inductionHypothesis =>
    have lower := inductionHypothesis fun digit member => decimal digit (.tail _ member)
    obtain ⟨_, small⟩ := digit_le_nine (decimal digit (.head _))
    rw [Nat.ofDigitChars_cons, Nat.ofDigitChars_eq_ofDigitChars_zero, Nat.mul_zero, Nat.zero_add,
      List.length_cons, Nat.pow_succ]
    have leading := Nat.mul_le_mul_left (10 ^ rest.length) small
    omega

/-- Among digit strings of one length the order of the texts is that of the numbers: the first
    digit in which they differ outweighs everything after it. -/
theorem lt_iff_ofDigitChars_lt {first second : List Char} (firstDecimal : IsDecimal first)
    (secondDecimal : IsDecimal second) (sameLength : first.length = second.length) :
    first < second ↔ Nat.ofDigitChars 10 first 0 < Nat.ofDigitChars 10 second 0 := by
  induction first generalizing second with
  | nil =>
    have empty : second = [] := List.eq_nil_of_length_eq_zero sameLength.symm
    simp [empty]
  | cons digit rest inductionHypothesis =>
    cases second with
    | nil => simp at sameLength
    | cons digit' rest' =>
      have lengths : rest.length = rest'.length := by simpa using sameLength
      have restDecimal : IsDecimal rest := fun digit member => firstDecimal digit (.tail _ member)
      have restDecimal' : IsDecimal rest' := fun digit member => secondDecimal digit (.tail _ member)
      have rests := inductionHypothesis restDecimal restDecimal' lengths
      have bound := ofDigitChars_lt restDecimal
      have bound' := ofDigitChars_lt restDecimal'
      obtain ⟨isValue, _⟩ := digit_le_nine (firstDecimal digit (.head _))
      obtain ⟨isValue', _⟩ := digit_le_nine (secondDecimal digit' (.head _))
      have byValue : digit < digit' ↔ digit.toNat < digit'.toNat := UInt32.lt_iff_toNat_lt
      have sameChar : digit = digit' ↔ digit.toNat = digit'.toNat := Char.toNat_inj.symm
      rw [← lengths] at bound'
      simp only [Nat.ofDigitChars_cons, Nat.mul_zero, Nat.zero_add]
      rw [Nat.ofDigitChars_eq_ofDigitChars_zero, @Nat.ofDigitChars_eq_ofDigitChars_zero rest', ← lengths,
        weighted_lt_iff bound bound', List.cons_lt_cons_iff, rests, byValue, sameChar]
      omega

/-- Decimal numbers of at most so many digits, padded with zeros. -/
def zeroPadding (width : Nat) (positive : 0 < width) : SortableWriter Nat where
  Fits number := number < 10 ^ width
  width := width
  write := zeroPadded width
  length_write fits := length_zeroPadded positive fits
  write_lt_iff {first second} firstFits secondFits := by
    have lengths : (zeroPadded width first).length = (zeroPadded width second).length := by
      rw [length_zeroPadded positive firstFits, length_zeroPadded positive secondFits]
    rw [lt_iff_ofDigitChars_lt (isDecimal_zeroPadded width first) (isDecimal_zeroPadded width second)
      lengths, ofDigitChars_zeroPadded, ofDigitChars_zeroPadded]

end Data
