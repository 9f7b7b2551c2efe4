import SpectraGQL.Core.HlcClock
import SpectraGQL.Interaction.RetryLoop
import Mathlib.Logic.Relation

/-! # Runs of hybrid logical clocks

Any number of threads on any number of nodes call `now` and `update`, each on the clock of
its node, with any readings of the wall clocks.  The calls are the retry loops of
`Interaction.RetryLoop`, so every run is a serial run of the exchanges that succeed, and
what holds of one exchange (`Core.HlcClock`) carries over to whole runs:

* `timestamps_strictly_increase`: the timestamps of a node increase with every exchange;
* `happensBefore_lt`: timestamps respect causality across nodes;
* `drift_bounded`: remote timestamps push a clock ahead by the cap and no further.
-/

namespace SpectraGQL.Core.HlcClock

open Interaction.RetryLoop

/-- A message carries the timestamp of the event that sent it; one from elsewhere carries
    any timestamp.  Events are numbered in the order of their exchanges. -/
inductive Request where
  | now
  | update (remote : HlcTimestamp) (sender : Option Nat)
  deriving DecidableEq

/-- A call of `now` or `update` on the clock of a node, with the reading it takes first. -/
structure Call (ν : Type) where
  node : ν
  physicalNow : UInt64
  request : Request
  deriving DecidableEq

variable {ι ν : Type}

def Call.timestamp (call : Call ν) (current : UInt64) : HlcTimestamp :=
  match call.request with
  | .now => nowFrom call.physicalNow current
  | .update remote _ => updateFrom call.physicalNow remote current

def machine : Machine ν (Call ν) UInt64 HlcTimestamp where
  cell := Call.node
  next := fun call current => pack (call.timestamp current)
  result := Call.timestamp

/-- A message arrives after the event that sent it. -/
def Delivers (events : List (Commit ι (Call ν) HlcTimestamp)) (call : Call ν) : Prop :=
  ∀ remote sender, call.request = .update remote (some sender) →
    (events[sender]?).map Commit.value = some remote

instance (events : List (Commit ι (Call ν) HlcTimestamp)) (call : Call ν) :
    Decidable (Delivers events call) :=
  match isRequest : call.request with
  | .now => isTrue fun _ _ received => by rw [isRequest] at received; cases received
  | .update _ none => isTrue fun _ _ received => by rw [isRequest] at received; cases received
  | .update remote (some sender) =>
    decidable_of_iff ((events[sender]?).map Commit.value = some remote)
      ⟨fun sent _ _ received => by rw [isRequest] at received; cases received; exact sent,
        fun delivers => delivers remote sender isRequest⟩

theorem delivers_append (past more : List (Commit ι (Call ν) HlcTimestamp)) (call : Call ν)
    (delivers : Delivers past call) : Delivers (past ++ more) call := by
  intro remote sender received
  obtain ⟨event, found, stamped⟩ := Option.map_eq_some_iff.mp (delivers remote sender received)
  have bound : sender < past.length := (List.getElem?_eq_some_iff.mp found).1
  rw [List.getElem?_append_left bound, found]
  exact congrArg some stamped

section Exchange

variable (call : Call ν) (current : UInt64)

theorem packable_timestamp : (call.timestamp current).Packable := by
  unfold Call.timestamp
  split
  · exact packable_nowFrom ..
  · exact packable_updateFrom ..

theorem lt_value_timestamp : current.toNat < (call.timestamp current).value := by
  unfold Call.timestamp
  split
  · exact lt_value_nowFrom ..
  · exact lt_value_updateFrom ..

theorem value_timestamp_le (limit : Nat) (reading : call.physicalNow.toNat + 60000 ≤ limit) :
    (call.timestamp current).value ≤ max (65536 * (limit + 1)) (current.toNat + 1) := by
  unfold Call.timestamp
  split
  · have bound := value_nowFrom_le call.physicalNow current
    omega
  · exact value_updateFrom_le _ _ _ limit reading

/-- Below 48 bits nothing is cut off. -/
theorem toNat_pack_of_bounded {hlc : HlcTimestamp} (packable : hlc.Packable)
    (bounded : hlc.physical.toNat < 2 ^ 48) : (pack hlc).toNat = hlc.value := by
  rw [toNat_pack packable]
  unfold HlcTimestamp.Packable at packable
  unfold HlcTimestamp.value
  omega

end Exchange

/-! ## One clock -/

/-- A clock stands at its last timestamp, and all its timestamps are below. -/
structure Ascending (cell : UInt64) (timestamps : List HlcTimestamp) : Prop where
  increasing : timestamps.Pairwise (· < ·)
  below : ∀ hlc ∈ timestamps, hlc.value ≤ cell.toNat
  last : ∀ hlc, timestamps.getLast? = some hlc → cell.toNat = hlc.value ∧ hlc.Packable

/-- Before the first exchange. -/
theorem Ascending.nil (cell : UInt64) : Ascending cell [] where
  increasing := .nil
  below := fun _ member => absurd member List.not_mem_nil
  last := fun _ isLast => by cases isLast

/-- One more exchange. -/
theorem Ascending.concat {cell : UInt64} {timestamps : List HlcTimestamp}
    (ascending : Ascending cell timestamps) (call : Call ν)
    (bounded : (call.timestamp cell).physical.toNat < 2 ^ 48) :
    Ascending (pack (call.timestamp cell)) (timestamps ++ [call.timestamp cell]) := by
  have packable := packable_timestamp call cell
  have grows := lt_value_timestamp call cell
  have packed := toNat_pack_of_bounded packable bounded
  refine ⟨?_, ?_, ?_⟩
  · refine List.pairwise_append.mpr ⟨ascending.increasing, List.pairwise_singleton .., ?_⟩
    intro hlc member _ isNew
    rw [List.mem_singleton.mp isNew]
    exact HlcTimestamp.lt_of_value_lt packable ((ascending.below hlc member).trans_lt grows)
  · intro hlc member
    rw [packed]
    rcases List.mem_append.mp member with earlier | isNew
    · exact (ascending.below hlc earlier).trans grows.le
    · rw [List.mem_singleton.mp isNew]
  · intro hlc isLast
    rw [List.getLast?_concat] at isLast
    cases isLast
    exact ⟨packed, packable⟩

section Nodes

variable [DecidableEq ν]

/-- The timestamps of one node, in the order of its exchanges. -/
def timestampsAt (node : ν) (events : List (Commit ι (Call ν) HlcTimestamp)) : List HlcTimestamp :=
  (events.filter fun event => event.input.node = node).map Commit.value

theorem timestampsAt_concat (node : ν) (events : List (Commit ι (Call ν) HlcTimestamp))
    (event : Commit ι (Call ν) HlcTimestamp) :
    timestampsAt node (events ++ [event]) =
      timestampsAt node events ++ (if event.input.node = node then [event.value] else []) := by
  unfold timestampsAt
  rw [List.filter_append, List.map_append]
  by_cases here : event.input.node = node <;> simp [here]

variable {cells after : ν → UInt64} {events : List (Commit ι (Call ν) HlcTimestamp)}

/-- An invariant of one clock and its timestamps: what holds before the first exchange and
    is kept by every exchange of the node holds after every serial run. -/
theorem clock_of_serial (node : ν) (inv : UInt64 → List HlcTimestamp → Prop)
    {good : Commit ι (Call ν) HlcTimestamp → Prop} (initial : inv (cells node) [])
    (exchange : ∀ cell timestamps thread call, call.node = node → inv cell timestamps →
      good ⟨thread, call, call.timestamp cell⟩ →
        inv (pack (call.timestamp cell)) (timestamps ++ [call.timestamp cell]))
    (serial : Serial machine Delivers cells events after) (allGood : ∀ event ∈ events, good event) :
    inv (after node) (timestampsAt node events) := by
  induction serial with
  | nil => exact initial
  | @concat events middle thread call serial allowed inductionHypothesis =>
    have earlier := inductionHypothesis fun event member =>
      allGood event (List.mem_append_left _ member)
    have now := allGood _ (List.mem_append_right events (List.mem_singleton.mpr rfl))
    rw [timestampsAt_concat]
    by_cases here : call.node = node
    · subst here
      have cell : machine.cell call = call.node := rfl
      simp only [if_true, cell, Function.update_self]
      exact exchange _ _ thread call rfl earlier now
    · have elsewhere : node ≠ machine.cell call := fun same => here same.symm
      simp only [here, if_false, List.append_nil, Function.update_of_ne elsewhere]
      exact earlier

variable [DecidableEq ι] {config : Config ι ν (Call ν) UInt64 HlcTimestamp}

/-- The reachable states of the nodes' clocks and their callers. -/
abbrev ClocksReach (cells : ν → UInt64) (config : Config ι ν (Call ν) UInt64 HlcTimestamp) : Prop :=
  Reaches machine Delivers cells config

/-- Two threads race on the clock of node `false`, whose wall clock stands still; the loser
    also meets a spurious failure.  Its timestamp is then sent to node `true`. -/
def raceAndSend : List (Move Bool (Call Bool)) :=
  [.call false ⟨false, 1000, .now⟩, .call true ⟨false, 1000, .now⟩, .load false, .load true,
    .exchange true, .exchange false, .spuriousFailure false, .exchange false,
    .call true ⟨true, 900, .update ⟨1000, 2⟩ (some 1)⟩, .load true, .exchange true]

/-- The clocks of both nodes when their wall clocks were at 1000. -/
def freshClocks : Bool → UInt64 := fun _ => new 1000

def raceAndSendEvents : List (Commit Bool (Call Bool) HlcTimestamp) :=
  [⟨true, ⟨false, 1000, .now⟩, ⟨1000, 1⟩⟩, ⟨false, ⟨false, 1000, .now⟩, ⟨1000, 2⟩⟩,
    ⟨true, ⟨true, 900, .update ⟨1000, 2⟩ (some 1)⟩, ⟨1000, 3⟩⟩]

theorem raceAndSend_reaches : ∃ config, ClocksReach freshClocks config ∧
    config.commits = raceAndSendEvents :=
  ⟨_, Reaches.schedule raceAndSend .initial rfl, rfl⟩

theorem raceAndSendEvents_bounded :
    ∀ event ∈ raceAndSendEvents, event.value.physical.toNat < 2 ^ 48 := by decide

/-- The timestamps of a node increase with every exchange that succeeds, and its clock is
    the last of them. -/
theorem timestamps_strictly_increase (reaches : ClocksReach cells config)
    (bounded : ∀ event ∈ config.commits, event.value.physical.toNat < 2 ^ 48) (node : ν) :
    (timestampsAt node config.commits).Pairwise (· < ·) ∧
      (timestampsAt node config.commits).Nodup ∧
      (∀ last, (timestampsAt node config.commits).getLast? = some last →
        (config.cells node).toNat = 65536 * last.physical.toNat + last.logical.toNat ∧
          last.logical.toNat ≤ 65535) ∧
      ∀ thread hlc, config.threads thread = .returned hlc →
        ∃ event ∈ config.commits, event.thread = thread ∧ event.value = hlc := by
  have ascending : Ascending (config.cells node) (timestampsAt node config.commits) :=
    clock_of_serial node Ascending (.nil _) (fun _ _ _ call _ ascending now => ascending.concat call now)
      (reaches.serial delivers_append) bounded
  refine ⟨ascending.increasing, ?_, ascending.last, reaches.committed⟩
  refine ascending.increasing.imp ?_
  rintro first _ less rfl
  rw [HlcTimestamp.lt_iff] at less
  omega

theorem timestamps_strictly_increase_race :
    ∃ config : Config Bool Bool (Call Bool) UInt64 HlcTimestamp, ClocksReach freshClocks config ∧
    (timestampsAt false config.commits) = [⟨1000, 1⟩, ⟨1000, 2⟩] ∧
      (timestampsAt false config.commits).Pairwise (· < ·) := by
  obtain ⟨config, reaches, isRun⟩ := raceAndSend_reaches
  have bounded := raceAndSendEvents_bounded
  rw [← isRun] at bounded
  exact ⟨config, reaches, by rw [isRun]; rfl,
    (timestamps_strictly_increase reaches bounded false).1⟩

/-- However far ahead remote timestamps are, a clock stays at the cap of its readings, up
    to one step for every exchange. -/
theorem drift_bounded (reaches : ClocksReach cells config) (node : ν) (initialPhysical : UInt64)
    (started : cells node = new initialPhysical) (latest : Nat)
    (readings : ∀ event ∈ config.commits, event.input.node = node →
      event.input.physicalNow.toNat ≤ latest) :
    (config.cells node).toNat ≤ 65536 * (max initialPhysical.toNat (latest + 60000) + 1) +
        (timestampsAt node config.commits).length ∧
      ∀ hlc ∈ timestampsAt node config.commits, hlc.physical.toNat ≤
        max initialPhysical.toNat (latest + 60000) + 1 +
          (timestampsAt node config.commits).length / 65536 := by
  generalize isLimit : max initialPhysical.toNat (latest + 60000) = limit
  -- the clock and every timestamp are within the cap, up to the number of exchanges
  have within : (config.cells node).toNat ≤
        65536 * (limit + 1) + (timestampsAt node config.commits).length ∧
      ∀ hlc ∈ timestampsAt node config.commits,
        hlc.value ≤ 65536 * (limit + 1) + (timestampsAt node config.commits).length := by
    refine clock_of_serial node (fun cell timestamps =>
      cell.toNat ≤ 65536 * (limit + 1) + timestamps.length ∧
        ∀ hlc ∈ timestamps, hlc.value ≤ 65536 * (limit + 1) + timestamps.length) ⟨?_, ?_⟩ ?_
      (reaches.serial delivers_append) readings
    · have start := value_new_le initialPhysical
      rw [started]
      omega
    · exact fun hlc member => absurd member List.not_mem_nil
    · rintro cell timestamps thread call here ⟨cellWithin, allWithin⟩ reading
      have early : call.physicalNow.toNat ≤ latest := reading here
      have step := value_timestamp_le call cell limit (by omega)
      have packed := toNat_pack (packable_timestamp call cell)
      rw [List.length_append, List.length_singleton]
      refine ⟨by omega, fun hlc member => ?_⟩
      rcases List.mem_append.mp member with earlier | isNew
      · have bound := allWithin hlc earlier
        omega
      · rw [List.mem_singleton.mp isNew]
        omega
  refine ⟨within.1, fun hlc member => ?_⟩
  have bound := within.2 hlc member
  unfold HlcTimestamp.value at bound
  omega

theorem drift_bounded_race :
    ∃ config : Config Bool Bool (Call Bool) UInt64 HlcTimestamp, ClocksReach freshClocks config ∧
    (timestampsAt true config.commits) = [⟨1000, 3⟩] ∧
      (config.cells true).toNat ≤ 65536 * (max 1000 (900 + 60000) + 1) + 1 := by
  obtain ⟨config, reaches, isRun⟩ := raceAndSend_reaches
  have readings : ∀ event ∈ raceAndSendEvents, event.input.node = true →
      event.input.physicalNow.toNat ≤ 900 := by decide
  have stamped : timestampsAt true config.commits = [⟨1000, 3⟩] := by
    rw [isRun]
    rfl
  rw [← isRun] at readings
  have bound := (drift_bounded reaches true 1000 rfl 900 readings).1
  rw [stamped] at bound
  exact ⟨config, reaches, stamped, bound⟩

/-! ## Several nodes -/

/-- An event comes before another on its node, or sends the message that the other receives. -/
def Precedes (events : List (Commit ι (Call ν) HlcTimestamp)) (first second : Nat) : Prop :=
  ∃ before after, events[first]? = some before ∧ events[second]? = some after ∧
    (first < second ∧ before.input.node = after.input.node ∨
      ∃ remote, after.input.request = .update remote (some first))

def HappensBefore (events : List (Commit ι (Call ν) HlcTimestamp)) : Nat → Nat → Prop :=
  Relation.TransGen (Precedes events)

/-- Every received physical time is within the drift that its receiver tolerates. -/
def Tolerated (events : List (Commit ι (Call ν) HlcTimestamp)) : Prop :=
  ∀ event ∈ events, ∀ remote sender, event.input.request = .update remote sender →
    remote.physical.toNat ≤ event.input.physicalNow.toNat + 60000

section Causality

variable {events : List (Commit ι (Call ν) HlcTimestamp)} {after : ν → UInt64}

omit [DecidableEq ι] in
/-- Events of one node: the timestamps increase, whatever the other nodes do in between. -/
theorem lt_of_same_node (serial : Serial machine Delivers cells events after)
    (bounded : ∀ event ∈ events, event.value.physical.toNat < 2 ^ 48) :
    events.Pairwise fun first second =>
      first.input.node = second.input.node → first.value < second.value := by
  induction serial with
  | nil => exact .nil
  | @concat events middle thread call serial allowed inductionHypothesis =>
    have earlierBounded : ∀ event ∈ events, event.value.physical.toNat < 2 ^ 48 :=
      fun event member => bounded event (List.mem_append_left _ member)
    refine List.pairwise_append.mpr
      ⟨inductionHypothesis earlierBounded, List.pairwise_singleton .., ?_⟩
    intro event member _ isNew sameNode
    rw [List.mem_singleton.mp isNew] at sameNode ⊢
    -- the clock of the node is already past the earlier event
    have ascending : Ascending (middle call.node) (timestampsAt call.node events) :=
      clock_of_serial call.node Ascending (.nil _)
        (fun _ _ _ call _ ascending now => ascending.concat call now) serial earlierBounded
    have isTimestamp : event.value ∈ timestampsAt call.node events :=
      List.mem_map_of_mem (List.mem_filter.mpr ⟨member, decide_eq_true sameNode⟩)
    exact HlcTimestamp.lt_of_value_lt (packable_timestamp call _)
      ((ascending.below _ isTimestamp).trans_lt (lt_value_timestamp call _))

omit [DecidableEq ι] in
/-- A received timestamp is below that of its receipt, and so was that of the sender. -/
theorem receipt_of_serial (serial : Serial machine Delivers cells events after)
    (bounded : ∀ event ∈ events, event.value.physical.toNat < 2 ^ 48) (tolerated : Tolerated events)
    {index : Nat} {event : Commit ι (Call ν) HlcTimestamp} (found : events[index]? = some event)
    {remote : HlcTimestamp} {sender : Option Nat}
    (received : event.input.request = .update remote sender) :
    remote < event.value ∧ ∀ position, sender = some position →
      (events[position]?).map Commit.value = some remote := by
  have member : event ∈ events := List.mem_of_getElem? found
  obtain ⟨earlier, later, rfl⟩ := List.append_of_mem member
  obtain ⟨before, -, delivers, isValue⟩ := serial.commit
  have stamped : event.value =
      updateFrom event.input.physicalNow remote (before event.input.node) := by
    rw [isValue]
    simp only [machine, Call.timestamp, received]
  have bound := bounded event member
  rw [stamped] at bound ⊢
  refine ⟨remote_lt_updateFrom _ _ _ (tolerated event member remote sender received) bound, ?_⟩
  rintro position rfl
  exact delivers_append earlier _ _ delivers remote position received

end Causality

/-- Timestamps respect causality: an event that happens before another has the smaller
    timestamp, and a receipt is above the timestamp it receives, wherever that is from. -/
theorem happensBefore_lt (reaches : ClocksReach cells config)
    (bounded : ∀ event ∈ config.commits, event.value.physical.toNat < 2 ^ 48)
    (tolerated : Tolerated config.commits) :
    (∀ first second, HappensBefore config.commits first second →
      ∃ before after, config.commits[first]? = some before ∧ config.commits[second]? = some after ∧
        before.value < after.value) ∧
    ∀ event ∈ config.commits, ∀ remote sender, event.input.request = .update remote sender →
      remote < event.value := by
  have serial := reaches.serial delivers_append
  have direct : ∀ first second, Precedes config.commits first second →
      ∃ before after, config.commits[first]? = some before ∧ config.commits[second]? = some after ∧
        before.value < after.value := by
    -- an earlier event of the same node, or the sender of what is received
    rintro first second ⟨before, after, foundFirst, foundSecond, ⟨earlier, sameNode⟩ | ⟨remote, received⟩⟩
    · refine ⟨before, after, foundFirst, foundSecond, ?_⟩
      obtain ⟨firstBound, rfl⟩ := List.getElem?_eq_some_iff.mp foundFirst
      obtain ⟨secondBound, rfl⟩ := List.getElem?_eq_some_iff.mp foundSecond
      exact List.pairwise_iff_getElem.mp (lt_of_same_node serial bounded) first second firstBound
        secondBound earlier sameNode
    · obtain ⟨less, sent⟩ := receipt_of_serial serial bounded tolerated foundSecond received
      have stamped := sent first rfl
      rw [foundFirst] at stamped
      cases stamped
      exact ⟨before, after, foundFirst, foundSecond, less⟩
  refine ⟨fun first second happens => ?_, ?_⟩
  · induction happens with
    | single precedes => exact direct _ _ precedes
    | tail _ precedes inductionHypothesis =>
      obtain ⟨before, middle, foundFirst, foundMiddle, less⟩ := inductionHypothesis
      obtain ⟨middle', after, foundMiddle', foundSecond, less'⟩ := direct _ _ precedes
      cases foundMiddle.symm.trans foundMiddle'
      exact ⟨before, after, foundFirst, foundSecond, HlcTimestamp.lt_trans less less'⟩
  · intro event member remote sender received
    obtain ⟨index, found⟩ := List.getElem?_of_mem member
    exact (receipt_of_serial serial bounded tolerated found received).1

/-- The event that wins the race happens before the receipt of the one that loses it. -/
theorem happensBefore_lt_race :
    ∃ config : Config Bool Bool (Call Bool) UInt64 HlcTimestamp, ClocksReach freshClocks config ∧
    ∃ before after, config.commits[0]? = some before ∧ config.commits[2]? = some after ∧
      before.value < after.value := by
  obtain ⟨config, reaches, isRun⟩ := raceAndSend_reaches
  have bounded := raceAndSendEvents_bounded
  have tolerated : Tolerated raceAndSendEvents := by
    intro event member remote sender received
    simp only [raceAndSendEvents, List.mem_cons, List.not_mem_nil, or_false] at member
    rcases member with rfl | rfl | rfl
    · cases received
    · cases received
    · cases received
      decide
  have sameNode : Precedes raceAndSendEvents 0 1 := ⟨_, _, rfl, rfl, .inl ⟨by decide, rfl⟩⟩
  have message : Precedes raceAndSendEvents 1 2 := ⟨_, _, rfl, rfl, .inr ⟨_, rfl⟩⟩
  have happens : HappensBefore raceAndSendEvents 0 2 := .tail (.single sameNode) message
  rw [← isRun] at bounded tolerated happens
  exact ⟨config, reaches, (happensBefore_lt reaches bounded tolerated).1 0 2 happens⟩

end Nodes

end SpectraGQL.Core.HlcClock
