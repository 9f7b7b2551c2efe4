import SpectraGQL.Core.Clock
import Mathlib.Algebra.Group.Nat.Defs
import Mathlib.Data.Nat.Bitwise

/-! # The hybrid logical clock (`core/clock.rs`)

The state of a clock is one word: a wall-clock reading in the upper 48 bits and a counter
in the lower 16.  `nowFrom` and `updateFrom` are the bodies of the loops of
`HlcClock::now` and `HlcClock::update`: the timestamp that is tried on a state.  What both
do is said once in terms of `HlcTimestamp.value`, the number that a timestamp is packed to:
they go past the state (`lt_value_nowFrom`, `lt_value_updateFrom`), past the remote
timestamp (`remote_lt_updateFrom`), and no further than they have to
(`value_nowFrom_le`, `value_updateFrom_le`).
-/

namespace SpectraGQL.Core

namespace HlcTimestamp

/-- The derived order: physical time first. -/
instance : LT HlcTimestamp where
  lt first second :=
    first.physical < second.physical ∨
      (first.physical = second.physical ∧ first.logical < second.logical)

theorem lt_iff (first second : HlcTimestamp) :
    first < second ↔ first.physical.toNat < second.physical.toNat ∨
      (first.physical.toNat = second.physical.toNat ∧
        first.logical.toNat < second.logical.toNat) := by
  simp only [LT.lt, ← UInt64.toNat_inj]
  rfl

instance (first second : HlcTimestamp) : Decidable (first < second) :=
  inferInstanceAs (Decidable (_ ∨ _))

theorem lt_trans {first second third : HlcTimestamp} (before : first < second)
    (after : second < third) : first < third := by
  rw [lt_iff] at *
  omega

/-- The number that the timestamp stands for, when its counter has 16 bits. -/
def value (hlc : HlcTimestamp) : Nat := 65536 * hlc.physical.toNat + hlc.logical.toNat

/-- The counter fits in 16 bits. -/
def Packable (hlc : HlcTimestamp) : Prop := hlc.logical.toNat ≤ 65535

theorem lt_of_value_lt {first second : HlcTimestamp} (packable : second.Packable)
    (less : first.value < second.value) : first < second := by
  rw [lt_iff]
  unfold Packable at packable
  unfold value at less
  omega

end HlcTimestamp

/-! ## Machine words -/

/-- `u64::saturating_add`. -/
def saturatingAdd (number more : UInt64) : UInt64 :=
  if number.toNat + more.toNat < 2 ^ 64 then number + more else 0xFFFFFFFFFFFFFFFF

/-- `u32::checked_add`. -/
def checkedAdd (number more : UInt32) : Option UInt32 :=
  if number.toNat + more.toNat < 2 ^ 32 then some (number + more) else none

theorem toNat_saturatingAdd (number more : UInt64) :
    (saturatingAdd number more).toNat = min (number.toNat + more.toNat) (2 ^ 64 - 1) := by
  unfold saturatingAdd
  split
  · rename_i fits
    rw [UInt64.toNat_add, Nat.mod_eq_of_lt fits]
    omega
  · rename_i overflows
    have least : (2 : Nat) ^ 64 - 1 ≤ number.toNat + more.toNat := by omega
    rw [Nat.min_eq_right least]
    rfl

theorem checkedAdd_eq_some {number more sum : UInt32} (fits : checkedAdd number more = some sum) :
    sum.toNat = number.toNat + more.toNat := by
  unfold checkedAdd at fits
  split at fits
  · rename_i bound
    cases fits
    rw [UInt32.toNat_add, Nat.mod_eq_of_lt bound]
  · cases fits

theorem checkedAdd_eq_none {number more : UInt32} (overflows : checkedAdd number more = none) :
    2 ^ 32 ≤ number.toNat + more.toNat := by
  unfold checkedAdd at overflows
  split at overflows
  · cases overflows
  · omega

namespace HlcClock

def maxAllowedClockDriftMs : UInt64 := 60000
def logicalMask : UInt64 := 0xFFFF
def maxLogical : UInt32 := 0xFFFF

/-- The upper 48 bits of the state. -/
def physicalOf (current : UInt64) : UInt64 := current >>> 16

/-- The lower 16 bits of the state. -/
def logicalOf (current : UInt64) : UInt32 := (current &&& logicalMask).toUInt32

def pack (hlc : HlcTimestamp) : UInt64 :=
  (hlc.physical <<< 16) ||| (hlc.logical.toUInt64 &&& logicalMask)

theorem toNat_physicalOf (current : UInt64) : (physicalOf current).toNat = current.toNat / 65536 := by
  unfold physicalOf
  rw [UInt64.toNat_shiftRight, Nat.shiftRight_eq_div_pow]
  rfl

theorem toNat_and_logicalMask (word : UInt64) : (word &&& logicalMask).toNat = word.toNat % 65536 := by
  rw [UInt64.toNat_and]
  exact Nat.and_two_pow_sub_one_eq_mod word.toNat 16

theorem toNat_logicalOf (current : UInt64) : (logicalOf current).toNat = current.toNat % 65536 := by
  unfold logicalOf
  rw [UInt64.toNat_toUInt32, toNat_and_logicalMask]
  omega

/-- A physical part of more than 48 bits is cut off. -/
theorem toNat_pack {hlc : HlcTimestamp} (packable : hlc.Packable) :
    (pack hlc).toNat = hlc.value % 2 ^ 64 := by
  unfold HlcTimestamp.Packable at packable
  unfold HlcTimestamp.value
  have lower : (hlc.logical.toUInt64 &&& logicalMask).toNat = hlc.logical.toNat := by
    rw [toNat_and_logicalMask, UInt32.toNat_toUInt64]
    omega
  have upper : (hlc.physical <<< 16).toNat = (hlc.physical.toNat % 2 ^ 48) <<< 16 := by
    rw [UInt64.toNat_shiftLeft, Nat.shiftLeft_eq, Nat.shiftLeft_eq]
    have amount : (16 : UInt64).toNat % 64 = 16 := rfl
    rw [amount]
    omega
  unfold pack
  rw [UInt64.toNat_or, lower, upper, ← Nat.shiftLeft_add_eq_or_of_lt (by omega), Nat.shiftLeft_eq]
  omega

/-! ## The operations -/

/-- `HlcClock::new`, at the first reading of the wall clock. -/
def new (initialPhysical : UInt64) : UInt64 := (initialPhysical <<< 16) &&& ~~~logicalMask

/-- The timestamp that `now` tries on a state. -/
def nowFrom (physicalNow current : UInt64) : HlcTimestamp :=
  if physicalNow > physicalOf current then ⟨physicalNow, 0⟩
  else if logicalOf current < maxLogical then ⟨physicalOf current, logicalOf current + 1⟩
  else ⟨saturatingAdd (physicalOf current) 1, 0⟩

/-- The counter after `logical`, in the next millisecond if it is exhausted. -/
def succeeding (physical : UInt64) (logical : UInt32) : HlcTimestamp :=
  match checkedAdd logical 1 with
  | some next => if next ≤ maxLogical then ⟨physical, next⟩ else ⟨saturatingAdd physical 1, 0⟩
  | none => ⟨saturatingAdd physical 1, 0⟩

/-- The physical part of a remote timestamp, as far as it is believed. -/
def safeRemotePhysical (physicalNow : UInt64) (remote : HlcTimestamp) : UInt64 :=
  if remote.physical > saturatingAdd physicalNow maxAllowedClockDriftMs then
    saturatingAdd physicalNow maxAllowedClockDriftMs
  else remote.physical

/-- The timestamp that `update` tries on a state. -/
def updateFrom (physicalNow : UInt64) (remote : HlcTimestamp) (current : UInt64) : HlcTimestamp :=
  let remotePhysical := safeRemotePhysical physicalNow remote
  let newPhysical := max (max physicalNow (physicalOf current)) remotePhysical
  if newPhysical = physicalOf current ∧ newPhysical = remotePhysical then
    succeeding newPhysical (max (logicalOf current) remote.logical)
  else if newPhysical = physicalOf current then succeeding newPhysical (logicalOf current)
  else if newPhysical = remotePhysical then succeeding newPhysical remote.logical
  else ⟨newPhysical, 0⟩

/-! ## What they compute -/

theorem toNat_max (first second : UInt64) : (max first second).toNat = max first.toNat second.toNat := by
  have unfolded : max first second = if first ≤ second then second else first := rfl
  rw [unfolded, Nat.max_def]
  simp only [UInt64.le_iff_toNat_le]
  split <;> rfl

theorem toNat_max32 (first second : UInt32) : (max first second).toNat = max first.toNat second.toNat := by
  have unfolded : max first second = if first ≤ second then second else first := rfl
  rw [unfolded, Nat.max_def]
  simp only [UInt32.le_iff_toNat_le]
  split <;> rfl

theorem toNat_lt (word : UInt64) : word.toNat < 2 ^ 64 := word.toNat_lt

theorem value_new_le (initialPhysical : UInt64) :
    (new initialPhysical).toNat ≤ 65536 * initialPhysical.toNat := by
  have shifted : (initialPhysical <<< 16).toNat ≤ 65536 * initialPhysical.toNat := by
    rw [UInt64.toNat_shiftLeft, Nat.shiftLeft_eq]
    have amount : (16 : UInt64).toNat % 64 = 16 := rfl
    rw [amount]
    omega
  unfold new
  rw [UInt64.toNat_and]
  exact Nat.and_le_left.trans shifted

/-- Either the counter goes on, or the next millisecond begins. -/
theorem succeeding_cases (physical : UInt64) (logical : UInt32) :
    ((succeeding physical logical).physical.toNat = physical.toNat ∧
      (succeeding physical logical).logical.toNat = logical.toNat + 1 ∧ logical.toNat < 65535) ∨
    ((succeeding physical logical).physical.toNat = min (physical.toNat + 1) (2 ^ 64 - 1) ∧
      (succeeding physical logical).logical.toNat = 0 ∧ 65535 ≤ logical.toNat) := by
  have carried : (saturatingAdd physical 1).toNat = min (physical.toNat + 1) (2 ^ 64 - 1) :=
    toNat_saturatingAdd physical 1
  unfold succeeding
  cases sum : checkedAdd logical 1 with
  | none =>
    have overflows : 2 ^ 32 ≤ logical.toNat + 1 := checkedAdd_eq_none sum
    exact .inr ⟨carried, rfl, by omega⟩
  | some next =>
    have exact : next.toNat = logical.toNat + 1 := checkedAdd_eq_some sum
    dsimp only
    split
    · rename_i fits
      have bound : next.toNat ≤ 65535 := UInt32.le_iff_toNat_le.mp fits
      exact .inl ⟨rfl, exact, by omega⟩
    · rename_i exhausted
      have bound : ¬ next.toNat ≤ 65535 := fun fits => exhausted (UInt32.le_iff_toNat_le.mpr fits)
      exact .inr ⟨carried, rfl, by omega⟩

theorem packable_succeeding (physical : UInt64) (logical : UInt32) :
    (succeeding physical logical).Packable := by
  unfold HlcTimestamp.Packable
  rcases succeeding_cases physical logical with ⟨_, isNext, bound⟩ | ⟨_, isZero, _⟩
  · omega
  · omega

/-- The counter ends at the next millisecond. -/
theorem value_succeeding_le (physical : UInt64) (logical : UInt32) :
    (succeeding physical logical).value ≤ 65536 * (physical.toNat + 1) ∧
      (succeeding physical logical).value ≤ 65536 * physical.toNat + logical.toNat + 1 := by
  unfold HlcTimestamp.value
  rcases succeeding_cases physical logical with ⟨samePhysical, isNext, bound⟩ | ⟨isNext, isZero, bound⟩
  · omega
  · omega

/-- A state is what its two parts are packed to. -/
theorem toNat_eq_parts (current : UInt64) :
    current.toNat = 65536 * (physicalOf current).toNat + (logicalOf current).toNat ∧
      (logicalOf current).toNat ≤ 65535 ∧ (physicalOf current).toNat < 2 ^ 48 := by
  have bound := toNat_lt current
  rw [toNat_physicalOf, toNat_logicalOf]
  omega

section Now

variable (physicalNow current : UInt64)

/-- A later reading, or the next number. -/
theorem nowFrom_cases :
    ((nowFrom physicalNow current).value = 65536 * physicalNow.toNat ∧
        (physicalOf current).toNat < physicalNow.toNat ∧ (nowFrom physicalNow current).Packable) ∨
      ((nowFrom physicalNow current).value = current.toNat + 1 ∧
        (nowFrom physicalNow current).Packable) := by
  obtain ⟨parts, logicalBound, physicalBound⟩ := toNat_eq_parts current
  unfold nowFrom HlcTimestamp.Packable HlcTimestamp.value
  split
  · rename_i later
    exact .inl ⟨rfl, UInt64.lt_iff_toNat_lt.mp later, Nat.zero_le _⟩
  · split
    · rename_i room
      have bound : (logicalOf current).toNat < 65535 := UInt32.lt_iff_toNat_lt.mp room
      have next : (logicalOf current + 1).toNat = (logicalOf current).toNat + 1 := by
        rw [UInt32.toNat_add]
        have one : (1 : UInt32).toNat = 1 := rfl
        rw [one]
        omega
      exact .inr ⟨by dsimp only; omega, by dsimp only; omega⟩
    · rename_i exhausted
      have bound : ¬ (logicalOf current).toNat < 65535 :=
        fun room => exhausted (UInt32.lt_iff_toNat_lt.mpr room)
      have carried := toNat_saturatingAdd (physicalOf current) 1
      have one : (1 : UInt64).toNat = 1 := rfl
      have zero : (0 : UInt32).toNat = 0 := rfl
      exact .inr ⟨by dsimp only; omega, by dsimp only; omega⟩

theorem lt_value_nowFrom : current.toNat < (nowFrom physicalNow current).value := by
  obtain ⟨parts, logicalBound, _⟩ := toNat_eq_parts current
  rcases nowFrom_cases physicalNow current with ⟨isReading, later, _⟩ | ⟨isNext, _⟩
  · omega
  · omega

theorem value_nowFrom_le :
    (nowFrom physicalNow current).value ≤ max (65536 * physicalNow.toNat) (current.toNat + 1) := by
  rcases nowFrom_cases physicalNow current with ⟨isReading, _, _⟩ | ⟨isNext, _⟩
  · omega
  · omega

theorem packable_nowFrom : (nowFrom physicalNow current).Packable := by
  rcases nowFrom_cases physicalNow current with ⟨_, _, packable⟩ | ⟨_, packable⟩
  · exact packable
  · exact packable

end Now

section Update

variable (physicalNow : UInt64) (remote : HlcTimestamp) (current : UInt64)

theorem toNat_safeRemotePhysical :
    (safeRemotePhysical physicalNow remote).toNat =
      min remote.physical.toNat (min (physicalNow.toNat + 60000) (2 ^ 64 - 1)) := by
  have cap : (saturatingAdd physicalNow maxAllowedClockDriftMs).toNat =
      min (physicalNow.toNat + 60000) (2 ^ 64 - 1) := toNat_saturatingAdd _ _
  unfold safeRemotePhysical
  split
  · rename_i tooFar
    have above := UInt64.lt_iff_toNat_lt.mp tooFar
    omega
  · rename_i near
    have below : ¬ _ < remote.physical.toNat := fun tooFar => near (UInt64.lt_iff_toNat_lt.mpr tooFar)
    omega

/-- The newest of the three physical times, and the counters that go with it: a reading of
    its own, or what succeeds `logical`, where `logical` is no less than the counters that
    belong to that time. -/
theorem updateFrom_cases :
    ∃ newest : UInt64,
      newest.toNat = max (max physicalNow.toNat (physicalOf current).toNat)
        (safeRemotePhysical physicalNow remote).toNat ∧
      ((updateFrom physicalNow remote current = ⟨newest, 0⟩ ∧
          (physicalOf current).toNat < newest.toNat ∧
          (safeRemotePhysical physicalNow remote).toNat < newest.toNat) ∨
        ∃ logical : UInt32, updateFrom physicalNow remote current = succeeding newest logical ∧
          (newest.toNat = (physicalOf current).toNat →
            (logicalOf current).toNat ≤ logical.toNat) ∧
          (newest.toNat = (safeRemotePhysical physicalNow remote).toNat →
            remote.logical.toNat ≤ logical.toNat) ∧
          (newest.toNat ≠ (safeRemotePhysical physicalNow remote).toNat →
            newest = physicalOf current ∧ logical = logicalOf current)) := by
  refine ⟨max (max physicalNow (physicalOf current)) (safeRemotePhysical physicalNow remote), ?_, ?_⟩
  · rw [toNat_max, toNat_max]
  unfold updateFrom
  dsimp only
  generalize isNewest : max (max physicalNow (physicalOf current))
    (safeRemotePhysical physicalNow remote) = newest
  have newestNat : newest.toNat = max (max physicalNow.toNat (physicalOf current).toNat)
      (safeRemotePhysical physicalNow remote).toNat := by
    rw [← isNewest, toNat_max, toNat_max]
  -- the branches of the code: both times are newest, the clock's own, the remote one, or neither
  split
  · rename_i both
    refine .inr ⟨max (logicalOf current) remote.logical, rfl, ?_, ?_, ?_⟩
    · rw [toNat_max32]
      omega
    · rw [toNat_max32]
      omega
    · exact fun other => absurd (congrArg UInt64.toNat both.2) other
  rename_i notBoth
  split
  · rename_i isCurrent
    have notRemote : newest.toNat ≠ (safeRemotePhysical physicalNow remote).toNat :=
      fun same => notBoth ⟨isCurrent, UInt64.toNat_inj.mp same⟩
    exact .inr ⟨logicalOf current, rfl, fun _ => le_refl _, fun same => absurd same notRemote,
      fun _ => ⟨isCurrent, rfl⟩⟩
  rename_i notCurrent
  have otherThanCurrent : newest.toNat ≠ (physicalOf current).toNat :=
    fun same => notCurrent (UInt64.toNat_inj.mp same)
  split
  · rename_i isRemote
    exact .inr ⟨remote.logical, rfl, fun same => absurd same otherThanCurrent, fun _ => le_refl _,
      fun other => absurd (congrArg UInt64.toNat isRemote) other⟩
  · rename_i notRemote
    have otherThanRemote : newest.toNat ≠ (safeRemotePhysical physicalNow remote).toNat :=
      fun same => notRemote (UInt64.toNat_inj.mp same)
    exact .inl ⟨rfl, by omega, by omega⟩

theorem packable_updateFrom : (updateFrom physicalNow remote current).Packable := by
  obtain ⟨newest, _, ⟨isReading, _⟩ | ⟨logical, isNext, _⟩⟩ := updateFrom_cases physicalNow remote current
  · rw [isReading]
    exact Nat.zero_le _
  · rw [isNext]
    exact packable_succeeding newest logical

theorem lt_value_updateFrom : current.toNat < (updateFrom physicalNow remote current).value := by
  obtain ⟨parts, logicalBound, physicalBound⟩ := toNat_eq_parts current
  obtain ⟨newest, isNewest, ⟨isReading, later, _⟩ | ⟨logical, isNext, ofCurrent, _⟩⟩ :=
    updateFrom_cases physicalNow remote current
  · rw [isReading]
    unfold HlcTimestamp.value
    dsimp only
    omega
  · rw [isNext]
    unfold HlcTimestamp.value
    have bound := toNat_lt newest
    rcases succeeding_cases newest logical with ⟨_, _, _⟩ | ⟨_, _, _⟩
    · omega
    · omega

/-- A remote timestamp that is believed is left behind, unless the physical part is at its end. -/
theorem remote_lt_updateFrom (tolerated : remote.physical.toNat ≤ physicalNow.toNat + 60000)
    (bounded : (updateFrom physicalNow remote current).physical.toNat < 2 ^ 48) :
    remote < updateFrom physicalNow remote current := by
  have believed : (safeRemotePhysical physicalNow remote).toNat = remote.physical.toNat := by
    rw [toNat_safeRemotePhysical]
    have bound := toNat_lt remote.physical
    omega
  obtain ⟨newest, isNewest, ⟨isReading, _, later⟩ | ⟨logical, isNext, _, ofRemote, _⟩⟩ :=
    updateFrom_cases physicalNow remote current
  · rw [isReading, HlcTimestamp.lt_iff]
    dsimp only
    omega
  · rw [isNext] at bounded ⊢
    rw [HlcTimestamp.lt_iff]
    rcases succeeding_cases newest logical with ⟨_, _, _⟩ | ⟨_, _, _⟩
    · omega
    · omega

/-- The clock moves to the end of a millisecond that a reading or the cap allows, or by one. -/
theorem value_updateFrom_le (limit : Nat) (reading : physicalNow.toNat + 60000 ≤ limit) :
    (updateFrom physicalNow remote current).value ≤
      max (65536 * (limit + 1)) (current.toNat + 1) := by
  obtain ⟨parts, logicalBound, physicalBound⟩ := toNat_eq_parts current
  have capped : (safeRemotePhysical physicalNow remote).toNat ≤ limit := by
    rw [toNat_safeRemotePhysical]
    omega
  obtain ⟨newest, isNewest, ⟨isReading, later, _⟩ | ⟨logical, isNext, _, _, ofCurrent⟩⟩ :=
    updateFrom_cases physicalNow remote current
  · rw [isReading]
    have zero : (0 : UInt32).toNat = 0 := rfl
    unfold HlcTimestamp.value
    dsimp only
    omega
  · rw [isNext]
    obtain ⟨byPhysical, byLogical⟩ := value_succeeding_le newest logical
    by_cases isRemote : newest.toNat = (safeRemotePhysical physicalNow remote).toNat
    · omega
    · obtain ⟨rfl, rfl⟩ := ofCurrent isRemote
      omega

end Update

end HlcClock

end SpectraGQL.Core
