import SpectraGQL.Core.Causality
import SpectraGQL.Data.Sortable

/-! # The order of the compact strings (`core/clock.rs`)

Consumers sort events by the compact strings of their timestamps.  A compact string is two decimal
numbers, padded to fixed widths, with a hyphen between them: a `Data.SortableWriter` for pairs, so
for the timestamps that fit the order of the strings is the order of the timestamps
(`toCompactString_order`), and the strings that a node's clock gives out ascend
(`compactStrings_ascend`).
-/

namespace SpectraGQL.Core

open Data

namespace HlcTimestamp

/-- Both numbers fit in the widths they are padded to. -/
structure FitsCompact (hlc : HlcTimestamp) : Prop where
  physical : hlc.physical.toNat < 10 ^ 13
  logical : hlc.logical.toNat ≤ 999999

/-- The order of timestamps is that of the pairs of their numbers. -/
def numbers (hlc : HlcTimestamp) : Nat ×ₗ Nat := toLex (hlc.physical.toNat, hlc.logical.toNat)

theorem numbers_lt_iff (first second : HlcTimestamp) :
    first.numbers < second.numbers ↔ first < second := by
  rw [lt_iff]
  exact Prod.Lex.toLex_lt_toLex

theorem numbers_inj {first second : HlcTimestamp} : first.numbers = second.numbers ↔ first = second := by
  constructor
  · intro same
    have parts := congrArg ofLex same
    simp only [numbers, ofLex_toLex, Prod.mk.injEq, UInt64.toNat_inj, UInt32.toNat_inj] at parts
    cases first
    cases second
    simpa using parts
  · intro same
    rw [same]

/-- What `to_compact_string` prints, as a writer of pairs. -/
def compactWriter : SortableWriter (Nat ×ₗ Nat) :=
  .joined ['-'] (zeroPadding 13 (by omega)) (zeroPadding 6 (by omega))

theorem toList_toCompactString (hlc : HlcTimestamp) :
    hlc.toCompactString.toList = compactWriter.write hlc.numbers := by
  have padded (width number : Nat) : (padZeros width number).toList = zeroPadded width number :=
    String.toList_ofList
  simp only [toCompactString, String.toList_append, padded]
  rfl

theorem FitsCompact.fits {hlc : HlcTimestamp} (fits : hlc.FitsCompact) : compactWriter.Fits hlc.numbers :=
  ⟨fits.physical, Nat.lt_succ_of_le fits.logical⟩

theorem toCompactString_lt_iff {first second : HlcTimestamp} (firstFits : first.FitsCompact)
    (secondFits : second.FitsCompact) :
    first.toCompactString < second.toCompactString ↔ first < second := by
  rw [String.lt_iff, toList_toCompactString, toList_toCompactString,
    compactWriter.write_lt_iff firstFits.fits secondFits.fits, numbers_lt_iff]

theorem toCompactString_inj {first second : HlcTimestamp} (firstFits : first.FitsCompact)
    (secondFits : second.FitsCompact) :
    first.toCompactString = second.toCompactString ↔ first = second := by
  rw [← String.toList_inj, toList_toCompactString, toList_toCompactString,
    compactWriter.write_eq_iff firstFits.fits secondFits.fits, numbers_inj]

/-- The compact strings sort as the timestamps, and no two timestamps share one. -/
theorem toCompactString_order {first second : HlcTimestamp} (firstFits : first.FitsCompact)
    (secondFits : second.FitsCompact) :
    (first.toCompactString < second.toCompactString ↔ first < second) ∧
      (first.toCompactString = second.toCompactString ↔ first = second) :=
  ⟨toCompactString_lt_iff firstFits secondFits, toCompactString_inj firstFits secondFits⟩

/-- The counter rolls over at the largest number of six digits. -/
theorem toCompactString_order_counter :
    (toCompactString ⟨1700000000000, 999999⟩ < toCompactString ⟨1700000000001, 0⟩ ↔
        (⟨1700000000000, 999999⟩ : HlcTimestamp) < ⟨1700000000001, 0⟩) ∧
      (toCompactString ⟨1700000000000, 999999⟩ = toCompactString ⟨1700000000001, 0⟩ ↔
        (⟨1700000000000, 999999⟩ : HlcTimestamp) = ⟨1700000000001, 0⟩) :=
  toCompactString_order ⟨by decide, by decide⟩ ⟨by decide, by decide⟩

/-- One digit more than the width, and the order of the strings is no longer that of the numbers. -/
example : toCompactString ⟨10000000000000, 0⟩ < toCompactString ⟨9999999999999, 0⟩ := by decide

end HlcTimestamp

namespace HlcClock

open Interaction.RetryLoop

variable {ι ν : Type} [DecidableEq ι] [DecidableEq ν] {cells : ν → UInt64}
  {config : Config ι ν (Call ν) UInt64 HlcTimestamp}

/-- Up to the last millisecond of thirteen digits the strings of a node ascend with its exchanges. -/
theorem compactStrings_ascend (reaches : ClocksReach cells config)
    (bounded : ∀ event ∈ config.commits, event.value.physical.toNat < 10 ^ 13) (node : ν) :
    ((timestampsAt node config.commits).map HlcTimestamp.toCompactString).Pairwise (· < ·) := by
  have shorter : (10 : Nat) ^ 13 < 2 ^ 48 := by decide
  -- the clock's own counter has sixteen bits, so every timestamp fits
  have ascending : Ascending (config.cells node) (timestampsAt node config.commits) ∧
      ∀ hlc ∈ timestampsAt node config.commits, hlc.FitsCompact := by
    refine clock_of_serial node
      (fun cell timestamps => Ascending cell timestamps ∧ ∀ hlc ∈ timestamps, hlc.FitsCompact)
      ⟨.nil _, by simp⟩ ?_ (reaches.serial delivers_append) bounded
    rintro cell timestamps thread call _ ⟨ascending, allFit⟩ now
    refine ⟨ascending.concat call (now.trans shorter), fun hlc member => ?_⟩
    cases List.mem_append.mp member with
    | inl earlier => exact allFit hlc earlier
    | inr isNew =>
      have packable : (call.timestamp cell).Packable := packable_timestamp call cell
      unfold HlcTimestamp.Packable at packable
      rw [List.mem_singleton.mp isNew]
      exact ⟨now, by omega⟩
  obtain ⟨ascending, allFit⟩ := ascending
  rw [List.pairwise_map]
  refine ascending.increasing.imp_of_mem ?_
  intro first second firstMember secondMember less
  exact (HlcTimestamp.toCompactString_lt_iff (allFit first firstMember) (allFit second secondMember)).mpr less

end HlcClock

end SpectraGQL.Core
