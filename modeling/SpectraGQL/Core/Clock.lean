import Mathlib.Tactic.Common

/-! # Hybrid logical clock timestamps (`core/clock.rs`) -/

namespace SpectraGQL.Core

/-- A decimal number padded with zeros on the left, as `{:0width}` prints it. -/
def padZeros (width number : Nat) : String :=
  let digits := Nat.toDigits 10 number
  String.ofList (List.replicate (width - digits.length) '0' ++ digits)

/-- A wall-clock reading in milliseconds with a counter for the events of one millisecond. -/
structure HlcTimestamp where
  physical : UInt64
  logical : UInt32
  deriving DecidableEq, Repr

/-- The compact, sortable form `<physical_ms>-<logical_counter>`. -/
def HlcTimestamp.toCompactString (hlc : HlcTimestamp) : String :=
  padZeros 13 hlc.physical.toNat ++ "-" ++ padZeros 6 hlc.logical.toNat

example : HlcTimestamp.toCompactString ⟨1000, 7⟩ = "0000000001000-000007" := by decide

end SpectraGQL.Core
