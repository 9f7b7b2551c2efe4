import SpectraGQL.Admin.Update
import Mathlib.Data.List.Nodup

/-! # What a rescan of DNS changes

A rescan asks for the address of every target and keeps the old one where it gets none.  Both
the addresses and the report are folds over the targets, which are a map: no two of them
have one name.  `rescanDns_frame` says what a rescan that nothing interferes with leaves
behind, and that a second one with the same answers leaves it alone.
-/

namespace SpectraGQL.Admin

open Interaction SpectraGQL.Http SpectraGQL.Gateway

/-! ## Looking up -/

theorem lookup_filter_of_ne {α : Type} (entries : List (String × α)) {name other : String}
    (different : other ≠ name) :
    (entries.filter fun entry => entry.1 ≠ name).lookup other = entries.lookup other := by
  induction entries with
  | nil => rfl
  | cons entry rest inductionHypothesis =>
    obtain ⟨key, value⟩ := entry
    by_cases same : key = name
    · subst same
      have apart : (other == key) = false := by simpa using different
      simpa [List.lookup_cons, apart] using inductionHypothesis
    · simp only [ne_eq, same, not_false_eq_true, decide_true, List.filter_cons_of_pos,
        List.lookup_cons]
      split
      · rfl
      · exact inductionHypothesis

@[simp] theorem lookup_insertUpstream_self (upstreams : List (String × SocketAddr)) (name : String)
    (addr : SocketAddr) : (insertUpstream upstreams name addr).lookup name = some addr := by
  simp [insertUpstream]

theorem lookup_insertUpstream_of_ne (upstreams : List (String × SocketAddr)) {name other : String}
    (addr : SocketAddr) (different : other ≠ name) :
    (insertUpstream upstreams name addr).lookup other = upstreams.lookup other := by
  have apart : (other == name) = false := by simpa using different
  simp only [insertUpstream, List.lookup_cons, apart]
  exact lookup_filter_of_ne upstreams different

/-! ## One target -/

section Scan

variable (resolve : String × String → Except String (List SocketAddr))
  (previous : List (String × SocketAddr))

/-- The address that a target resolves to. -/
def newAddress (target : String × String) : Option SocketAddr :=
  match resolve target with
  | .ok (newAddr :: _) => some newAddr
  | .ok [] | .error _ => none

/-- A target has moved if it resolves to another address than it had, or had none. -/
def hasMoved (target : String × String) : Bool :=
  match newAddress resolve target with
  | some newAddr => previous.lookup target.1 ≠ some newAddr
  | none => false

/-- The line of the report; there is none for a target that never had an address. -/
def entryOf (target : String × String) : Option DnsUpstreamEntry :=
  match newAddress resolve target with
  | some newAddr =>
    some ⟨target.1, target.2, newAddr, previous.lookup target.1, hasMoved resolve previous target⟩
  | none => (previous.lookup target.1).map fun addr => ⟨target.1, target.2, addr, some addr, false⟩

/-- What one round of the loop does. -/
theorem scanTarget_eq (scan : DnsScan) (target : String × String) :
    scanTarget resolve previous scan target =
      { upstreams := match newAddress resolve target with
          | some newAddr => insertUpstream scan.upstreams target.1 newAddr
          | none => scan.upstreams
        entries := scan.entries ++ (entryOf resolve previous target).toList
        changedCount := scan.changedCount + if hasMoved resolve previous target then 1 else 0 } := by
  unfold scanTarget entryOf hasMoved newAddress
  cases resolve target with
  | error error => simp
  | ok addrs =>
    cases addrs with
    | nil => simp
    | cons newAddr rest => simp

/-! ## All targets -/

variable {resolve previous}

theorem foldl_scanTarget_entries (targets : List (String × String)) (scan : DnsScan) :
    (targets.foldl (scanTarget resolve previous) scan).entries =
      scan.entries ++ targets.filterMap (entryOf resolve previous) := by
  induction targets generalizing scan with
  | nil => simp
  | cons target rest inductionHypothesis =>
    rw [List.foldl_cons, inductionHypothesis, scanTarget_eq, List.append_assoc]
    cases found : entryOf resolve previous target <;> simp [found]

theorem foldl_scanTarget_changedCount (targets : List (String × String)) (scan : DnsScan) :
    (targets.foldl (scanTarget resolve previous) scan).changedCount =
      scan.changedCount + targets.countP (hasMoved resolve previous) := by
  induction targets generalizing scan with
  | nil => simp
  | cons target rest inductionHypothesis =>
    rw [List.foldl_cons, inductionHypothesis, scanTarget_eq, List.countP_cons]
    simp only
    omega

/-- A name that no target resolves keeps its address. -/
theorem lookup_foldl_scanTarget_of_unresolved {targets : List (String × String)} {name : String}
    (unresolved : ∀ target ∈ targets, target.1 = name → newAddress resolve target = none)
    (scan : DnsScan) :
    (targets.foldl (scanTarget resolve previous) scan).upstreams.lookup name =
      scan.upstreams.lookup name := by
  induction targets generalizing scan with
  | nil => rfl
  | cons target rest inductionHypothesis =>
    rw [List.foldl_cons, inductionHypothesis
      (fun other member => unresolved other (List.mem_cons_of_mem _ member)), scanTarget_eq]
    cases found : newAddress resolve target with
    | none => rfl
    | some newAddr =>
      have different : name ≠ target.1 := by
        rintro rfl
        rw [unresolved target List.mem_cons_self rfl] at found
        cases found
      exact lookup_insertUpstream_of_ne _ _ different

/-- A name that is resolved gets the new address, and no later target takes it back. -/
theorem lookup_foldl_scanTarget_of_resolved {targets : List (String × String)}
    (distinct : (targets.map Prod.fst).Nodup) {target : String × String} (member : target ∈ targets)
    {newAddr : SocketAddr} (resolved : newAddress resolve target = some newAddr) (scan : DnsScan) :
    (targets.foldl (scanTarget resolve previous) scan).upstreams.lookup target.1 = some newAddr := by
  induction targets generalizing scan with
  | nil => cases member
  | cons first rest inductionHypothesis =>
    rw [List.map_cons, List.nodup_cons] at distinct
    rw [List.foldl_cons]
    cases List.mem_cons.mp member with
    | inl isFirst =>
      subst isFirst
      rw [lookup_foldl_scanTarget_of_unresolved, scanTarget_eq, resolved]
      · exact lookup_insertUpstream_self ..
      · intro other later sameName
        exact absurd (sameName ▸ List.mem_map_of_mem later) distinct.1
    | inr later => exact inductionHypothesis distinct.2 later _

end Scan

/-! ## The state left behind -/

section State

variable {resolve : String × String → Except String (List SocketAddr)} {state : RunningState}

/-- No two targets have one name: they are a map. -/
def DistinctTargets (state : RunningState) : Prop :=
  (state.upstreamTargets.map Prod.fst).Nodup

/-- The state after a rescan. -/
def rescanned (resolve : String × String → Except String (List SocketAddr)) (nowMs : Nat)
    (state : RunningState) : RunningState :=
  if state.upstreamTargets.any (hasMoved resolve state.namedUpstreams) then
    { state with
      namedUpstreams := (scanTargets resolve state).upstreams, updatedAtEpochMs := nowMs }
  else state

theorem lookup_scanTargets_of_resolved (distinct : DistinctTargets state) {target : String × String}
    (member : target ∈ state.upstreamTargets) {newAddr : SocketAddr}
    (resolved : newAddress resolve target = some newAddr) :
    (scanTargets resolve state).upstreams.lookup target.1 = some newAddr :=
  lookup_foldl_scanTarget_of_resolved distinct member resolved _

/-- Where nothing has moved the addresses are the resolved ones already. -/
theorem lookup_rescanned_of_resolved (nowMs : Nat) (distinct : DistinctTargets state)
    {target : String × String} (member : target ∈ state.upstreamTargets) {newAddr : SocketAddr}
    (resolved : newAddress resolve target = some newAddr) :
    (rescanned resolve nowMs state).namedUpstreams.lookup target.1 = some newAddr := by
  unfold rescanned
  split
  · exact lookup_scanTargets_of_resolved distinct member resolved
  · rename_i still
    have unmoved : hasMoved resolve state.namedUpstreams target = false := by
      simpa using List.any_eq_false.mp (Bool.eq_false_iff.mpr still) target member
    simpa [hasMoved, resolved] using unmoved

theorem lookup_rescanned_of_unresolved (nowMs : Nat) {name : String}
    (unresolved : ∀ target ∈ state.upstreamTargets, target.1 = name →
      newAddress resolve target = none) :
    (rescanned resolve nowMs state).namedUpstreams.lookup name = state.namedUpstreams.lookup name := by
  unfold rescanned
  split
  · exact lookup_foldl_scanTarget_of_unresolved unresolved _
  · rfl

/-- A target has moved if and only if its name has another address afterwards. -/
theorem hasMoved_iff (nowMs : Nat) (distinct : DistinctTargets state) {target : String × String}
    (member : target ∈ state.upstreamTargets) :
    hasMoved resolve state.namedUpstreams target = true ↔
      (rescanned resolve nowMs state).namedUpstreams.lookup target.1 ≠
        state.namedUpstreams.lookup target.1 := by
  cases found : newAddress resolve target with
  | none =>
    have unresolved : ∀ other ∈ state.upstreamTargets, other.1 = target.1 →
        newAddress resolve other = none := by
      intro other isTarget sameName
      rwa [List.inj_on_of_nodup_map distinct isTarget member sameName]
    simp [hasMoved, found, lookup_rescanned_of_unresolved nowMs unresolved]
  | some newAddr =>
    rw [lookup_rescanned_of_resolved nowMs distinct member found]
    simp only [hasMoved, found, decide_eq_true_eq]
    exact ne_comm

/-- Asked again, every target has the address that it resolves to. -/
theorem hasMoved_rescanned (nowMs : Nat) (distinct : DistinctTargets state)
    {target : String × String} (member : target ∈ state.upstreamTargets) :
    hasMoved resolve (rescanned resolve nowMs state).namedUpstreams target = false := by
  cases found : newAddress resolve target with
  | none => simp [hasMoved, found]
  | some newAddr =>
    simp [hasMoved, found, lookup_rescanned_of_resolved nowMs distinct member found]

@[simp] theorem rescanned_upstreamTargets (nowMs : Nat) :
    (rescanned resolve nowMs state).upstreamTargets = state.upstreamTargets := by
  unfold rescanned
  split <;> rfl

/-- Only the addresses and the time of the update are touched. -/
theorem rescanned_frame (nowMs : Nat) :
    rescanned resolve nowMs state =
      { state with
        namedUpstreams := (rescanned resolve nowMs state).namedUpstreams
        updatedAtEpochMs := (rescanned resolve nowMs state).updatedAtEpochMs } := by
  unfold rescanned
  split <;> rfl

end State

/-! ## Runs -/

section Runs

variable {γ : Type} {surroundings : Surroundings γ} {before after : AdminStore}
  {events : List (Event adminSignature)} {response : AdminResponse}

/-- The state is replaced. -/
def Replaces (events : List (Event adminSignature)) : Prop :=
  ∃ state, (⟨.storeState state, ()⟩ : Event adminSignature) ∈ events

/-- The report on a rescan. -/
def reportOf (resolve : String × String → Except String (List SocketAddr)) (state : RunningState) :
    List DnsUpstreamEntry :=
  (state.upstreamTargets.filterMap (entryOf resolve state.namedUpstreams)).mergeSort
    fun left right => left.name ≤ right.name

/-- A rescan that nothing interferes with stores the state if and only if some target has moved. -/
theorem runs_rescanDns
    (run : (rescanDns surroundings).Runs adminMeaning before events response after) :
    after = { before with
      state := rescanned surroundings.resolveTarget surroundings.nowMs before.state } ∧
    response = .rescanned before.state.upstreamTargets.length
      (before.state.upstreamTargets.countP
        (hasMoved surroundings.resolveTarget before.state.namedUpstreams))
      (reportOf surroundings.resolveTarget before.state) ∧
    (Replaces events ↔ ∃ target ∈ before.state.upstreamTargets,
      hasMoved surroundings.resolveTarget before.state.namedUpstreams target = true) := by
  have entries : (scanTargets surroundings.resolveTarget before.state).entries =
      before.state.upstreamTargets.filterMap
        (entryOf surroundings.resolveTarget before.state.namedUpstreams) :=
    foldl_scanTarget_entries _ _
  have changedCount : (scanTargets surroundings.resolveTarget before.state).changedCount =
      before.state.upstreamTargets.countP
        (hasMoved surroundings.resolveTarget before.state.namedUpstreams) :=
    (foldl_scanTarget_changedCount _ _).trans (Nat.zero_add _)
  unfold rescanDns at run
  -- it loads, and stores what has moved; without anything moved the run is over
  cases run with
  | call loaded rest =>
    obtain ⟨rfl, rfl⟩ := loaded
    simp only [Prog.bind, entries, changedCount] at rest
    split at rest
    · rename_i moved
      have anyMoved := List.countP_pos_iff.mp moved
      cases rest with
      | call stored ended =>
        cases stored
        cases ended
        refine ⟨?_, rfl, fun _ => anyMoved, fun _ => ?_⟩
        · rw [rescanned, if_pos (List.any_eq_true.mpr anyMoved)]
        · exact ⟨_, List.mem_cons_of_mem _ List.mem_cons_self⟩
    · rename_i still
      have noneMoved := fun moved => still (List.countP_pos_iff.mpr moved)
      cases rest
      refine ⟨?_, rfl, fun replaces => ?_, fun moved => absurd moved noneMoved⟩
      · rw [rescanned, if_neg fun anyMoved => noneMoved (List.any_eq_true.mp anyMoved)]
      · obtain ⟨state, isStore⟩ := replaces
        cases List.mem_singleton.mp isStore

/-- A line says that its target has changed if and only if the target has moved. -/
theorem countP_changed_reportOf (resolve : String × String → Except String (List SocketAddr))
    (state : RunningState) :
    (reportOf resolve state).countP DnsUpstreamEntry.changed =
      state.upstreamTargets.countP (hasMoved resolve state.namedUpstreams) := by
  rw [reportOf, (List.mergeSort_perm _ _).countP_eq]
  induction state.upstreamTargets with
  | nil => rfl
  | cons target rest inductionHypothesis =>
    rw [List.filterMap_cons, List.countP_cons, ← inductionHypothesis]
    unfold entryOf
    cases found : newAddress resolve target with
    | some newAddr => simp [List.countP_cons]
    | none =>
      have still : hasMoved resolve state.namedUpstreams target = false := by
        simp [hasMoved, found]
      cases state.namedUpstreams.lookup target.1 <;> simp [still]

/-- What a rescan leaves behind.  The new state differs in the addresses and the time of the
    update only; resolved names have their new address and all others their old one; the report
    counts the names whose address has changed. -/
structure RescanEffect (surroundings : Surroundings γ) (before : AdminStore)
    (events : List (Event adminSignature)) (response : AdminResponse) (after : AdminStore) :
    Prop where
  replaces : Replaces events ↔ ∃ target ∈ before.state.upstreamTargets, ∃ newAddr,
    newAddress surroundings.resolveTarget target = some newAddr ∧
      before.state.namedUpstreams.lookup target.1 ≠ some newAddr
  untouched : ¬ Replaces events → after = before
  frame : after = { before with state := { before.state with
    namedUpstreams := after.state.namedUpstreams
    updatedAtEpochMs := after.state.updatedAtEpochMs } }
  resolved : ∀ target ∈ before.state.upstreamTargets, ∀ newAddr,
    newAddress surroundings.resolveTarget target = some newAddr →
      after.state.namedUpstreams.lookup target.1 = some newAddr
  retained : ∀ name, (∀ target ∈ before.state.upstreamTargets, target.1 = name →
      newAddress surroundings.resolveTarget target = none) →
    after.state.namedUpstreams.lookup name = before.state.namedUpstreams.lookup name
  report : ∃ changedCount upstreams,
    response = .rescanned before.state.upstreamTargets.length changedCount upstreams ∧
      changedCount = before.state.upstreamTargets.countP (fun target =>
        after.state.namedUpstreams.lookup target.1 ≠
          before.state.namedUpstreams.lookup target.1) ∧
      upstreams.countP DnsUpstreamEntry.changed = changedCount

theorem hasMoved_eq_true_iff {resolve : String × String → Except String (List SocketAddr)}
    {previous : List (String × SocketAddr)} {target : String × String} :
    hasMoved resolve previous target = true ↔ ∃ newAddr,
      newAddress resolve target = some newAddr ∧ previous.lookup target.1 ≠ some newAddr := by
  unfold hasMoved
  cases newAddress resolve target <;> simp

theorem rescanEffect_of_runs (distinct : DistinctTargets before.state)
    (run : (rescanDns surroundings).Runs adminMeaning before events response after) :
    RescanEffect surroundings before events response after := by
  obtain ⟨rfl, rfl, replaces⟩ := runs_rescanDns run
  refine ⟨?_, fun kept => ?_, ?_, ?_, ?_, _, _, rfl, ?_, countP_changed_reportOf _ _⟩
  · simpa only [hasMoved_eq_true_iff] using replaces
  · have still := mt replaces.mpr kept
    rw [rescanned, if_neg fun moved => still (List.any_eq_true.mp moved)]
  · exact congrArg (fun state => { before with state := state }) (rescanned_frame _)
  · exact fun target member newAddr found =>
      lookup_rescanned_of_resolved _ distinct member found
  · exact fun name unresolved => lookup_rescanned_of_unresolved _ unresolved
  · apply List.countP_congr
    intro target member
    rw [hasMoved_iff surroundings.nowMs distinct member, decide_eq_true_eq]

/-- With the same answers there is nothing left to change. -/
theorem runs_rescanDns_again {later : Surroundings γ} {events' : List (Event adminSignature)}
    {response' : AdminResponse} {after' : AdminStore} (distinct : DistinctTargets before.state)
    (run : (rescanDns surroundings).Runs adminMeaning before events response after)
    (sameAnswers : later.resolveTarget = surroundings.resolveTarget)
    (again : (rescanDns later).Runs adminMeaning after events' response' after') :
    after' = after ∧ ¬ Replaces events' ∧
      ∃ upstreams, response' = .rescanned before.state.upstreamTargets.length 0 upstreams := by
  obtain ⟨rfl, -, -⟩ := runs_rescanDns run
  obtain ⟨rfl, rfl, replaces⟩ := runs_rescanDns again
  have still : ∀ target ∈ before.state.upstreamTargets, ¬ hasMoved later.resolveTarget
      (rescanned surroundings.resolveTarget surroundings.nowMs before.state).namedUpstreams
      target = true := by
    intro target member
    rw [sameAnswers, hasMoved_rescanned surroundings.nowMs distinct member]
    exact Bool.false_ne_true
  simp only [rescanned_upstreamTargets] at replaces
  simp only [rescanned_upstreamTargets, List.countP_eq_zero.mpr still]
  refine ⟨?_, fun replaced => ?_, _, rfl⟩
  · rw [rescanned, if_neg]
    simpa using still
  · obtain ⟨target, member, moved⟩ := replaces.mp replaced
    exact still target member moved

/-- A rescan that nothing interferes with replaces the state if and only if some target
    resolves to another address than its name had, and has this effect; a second one that gets
    the same answers changes nothing. -/
theorem rescanDns_frame (surroundings : Surroundings γ) (before : AdminStore)
    (distinct : DistinctTargets before.state) :
    (∃ events response after,
      (rescanDns surroundings).Runs adminMeaning before events response after) ∧
    ∀ events response after,
      (rescanDns surroundings).Runs adminMeaning before events response after →
      RescanEffect surroundings before events response after ∧
      ∀ later : Surroundings γ, later.resolveTarget = surroundings.resolveTarget →
        ∀ events' response' after',
          (rescanDns later).Runs adminMeaning after events' response' after' →
          after' = after ∧ ¬ Replaces events' ∧
            ∃ upstreams, response' = .rescanned before.state.upstreamTargets.length 0 upstreams := by
  refine ⟨Prog.exists_runs adminMeaning_total _ _, fun events response after run => ?_⟩
  refine ⟨rescanEffect_of_runs distinct run, fun later sameAnswers events' response' after' => ?_⟩
  exact runs_rescanDns_again distinct run sameAnswers

end Runs

/-- The only upstream has moved: its new address is found, and then kept. -/
theorem rescanDns_frame_moved : ∃ events response after,
    (rescanDns movedHost).Runs adminMeaning firstVersion events response after ∧
      Replaces events ∧ after.state.namedUpstreams.lookup "api" = some "10.0.0.2:80" := by
  obtain ⟨⟨events, response, after, run⟩, effects⟩ :=
    rescanDns_frame movedHost firstVersion (by unfold DistinctTargets; decide)
  obtain ⟨effect, -⟩ := effects events response after run
  refine ⟨events, response, after, run, effect.replaces.mpr ?_, ?_⟩
  · exact ⟨("api", "api:80"), List.mem_singleton_self _, "10.0.0.2:80", rfl, by decide⟩
  · exact effect.resolved ("api", "api:80") (List.mem_singleton_self _) "10.0.0.2:80" rfl

end SpectraGQL.Admin
