import SpectraGQL.Telemetry.Nats

/-! # The stream behind the connection

Every new context sets up the stream `mutations`: it reads the configuration, adds the subjects that
are missing and writes it back, or creates the stream.  Any number of gateways do so at once, and the
write may come to pass although no answer arrives.

The update is the same for everyone and doing it twice adds nothing, so nobody can lose what another
has written: `nats_stream_provisioned`.
-/

namespace SpectraGQL.Telemetry

open Interaction SpectraGQL.Http

/-! ## Subjects -/

namespace NatsDispatch

/-- The targets that are not among the subjects yet. -/
def missing (subjects : List String) : List String :=
  targetSubjects.filter fun subject => !subjects.contains subject

theorem nodup_targetSubjects : targetSubjects.Nodup := by decide

theorem foldl_addMissing {targets : List String} (nodup : targets.Nodup) (subjects : List String) (flag : Bool) :
    targets.foldl (fun (updated, needsUpdate) subject =>
      if updated.contains subject then (updated, needsUpdate) else (updated ++ [subject], true)) (subjects, flag) =
      (subjects ++ targets.filter (fun subject => !subjects.contains subject),
        flag || targets.any fun subject => !subjects.contains subject) := by
  induction targets generalizing subjects flag with
  | nil => simp
  | cons target rest inductionHypothesis =>
    obtain ⟨notLater, nodup⟩ := List.nodup_cons.mp nodup
    rw [List.foldl_cons]
    by_cases isThere : target ∈ subjects
    · simp only [List.contains_iff_mem.mpr isThere, if_true]
      rw [inductionHypothesis nodup]
      simp [isThere]
    · -- what has just been added is not asked for again
      have same : ∀ subject ∈ rest, (!(subjects ++ [target]).contains subject) = !subjects.contains subject := by
        intro subject member
        have different : subject ≠ target := fun equal => notLater (equal ▸ member)
        simp [different]
      have absent : subjects.contains target = false := by simpa using isThere
      simp only [absent, Bool.false_eq_true, if_false]
      rw [inductionHypothesis nodup, List.filter_congr same]
      simp only [List.filter_cons, List.any_cons, absent]
      simp

/-- Missing subjects are added at the end, in their order, and nothing else changes. -/
theorem addMissing_eq (subjects : List String) :
    addMissing subjects =
      (subjects ++ missing subjects, targetSubjects.any fun subject => !subjects.contains subject) := by
  unfold addMissing missing
  rw [foldl_addMissing nodup_targetSubjects, Bool.false_or]

theorem covers_append_missing (subjects : List String) : targetSubjects ⊆ subjects ++ missing subjects := by
  intro subject isTarget
  by_cases isThere : subject ∈ subjects
  · exact List.mem_append_left _ isThere
  · exact List.mem_append_right _ (by simp [missing, isTarget, isThere])

theorem missing_of_covers {subjects : List String} (covers : targetSubjects ⊆ subjects) : missing subjects = [] := by
  simp only [missing, List.filter_eq_nil_iff]
  intro subject isTarget
  simp [covers isTarget]

end NatsDispatch

open NatsDispatch

/-- The configuration with the subjects that were missing. -/
def StreamConfig.provisioned (config : StreamConfig) : StreamConfig :=
  { config with subjects := config.subjects ++ missing config.subjects }

theorem StreamConfig.provisioned_of_covers {config : StreamConfig} (covers : targetSubjects ⊆ config.subjects) :
    config.provisioned = config := by
  simp [provisioned, missing_of_covers covers]

/-- How the stream is left by whoever has set it up, where `start` is what there was before. -/
structure Provisions (start : Option StreamConfig) (config : StreamConfig) : Prop where
  covers : targetSubjects ⊆ config.subjects
  keeps : ∀ earlier, start = some earlier → ∃ added, config = { earlier with subjects := earlier.subjects ++ added } ∧
    added.Nodup ∧ ∀ subject ∈ added, subject ∈ targetSubjects ∧ subject ∉ earlier.subjects
  creates : start = none → config = standardStream ∨ config = { standardStream with storage := .memory }

namespace Provisions

variable {start : Option StreamConfig} {config : StreamConfig}

theorem of_provisioned (earlier : StreamConfig) : Provisions (some earlier) earlier.provisioned where
  covers := covers_append_missing earlier.subjects
  keeps := by
    rintro _ ⟨⟩
    exact ⟨missing earlier.subjects, rfl, nodup_targetSubjects.filter _, by simp [missing]⟩
  creates := by simp

theorem of_created (created : config = standardStream ∨ config = { standardStream with storage := .memory }) :
    Provisions none config where
  covers := by
    rcases created with rfl | rfl <;> exact List.Subset.refl _
  keeps := by simp
  creates := fun _ => created

/-- Who sets up what was there, or what somebody else has set up, leaves the stream set up. -/
theorem again (known : some config = start ∨ Provisions start config) : Provisions start config.provisioned := by
  rcases known with rfl | provisions
  · exact of_provisioned config
  · rw [StreamConfig.provisioned_of_covers provisions.covers]
    exact provisions

end Provisions

/-! ## What is asked of the broker -/

namespace StreamTrack

/-- What a call tells about the stream. -/
def read : Event (cellSignature natsSignature) → Option StreamConfig
  | ⟨.other (.getInfo _ _), some (.ok info)⟩ => some info
  | _ => none

/-- The stream is updated to what was read of it, set up. -/
def allowed (known : Option StreamConfig) : CellCall natsSignature → Prop
  | .other (.updateStream _ config) => ∃ info, known = some info ∧ config = info.provisioned
  | .other (.getOrCreateStream _ config) =>
    config = standardStream ∨ config = { standardStream with storage := .memory }
  | _ => True

def next (known : Option StreamConfig) (event : Event (cellSignature natsSignature)) : Option StreamConfig :=
  (read event).or known

def automaton : Automaton (cellSignature natsSignature) (Option StreamConfig) := ⟨allowed, fun _ => True, next⟩

/-- The same for what has nothing to do with the cell. -/
def inner : Automaton natsSignature (Option StreamConfig) where
  allowed known call := allowed known (.other call)
  possible _ := True
  next known event := next known ⟨.other event.call, event.answer⟩

theorem inner_lift {α : Type} {post : α → Option StreamConfig → Prop} {program : NatsProg α}
    {known : Option StreamConfig} (obeys : program.Obeys inner post known) :
    (CellProg.lift program).Obeys automaton post known := by
  induction program generalizing known with
  | ret value => exact obeys
  | call request rest inductionHypothesis =>
    exact ⟨obeys.1, fun answer _ => inductionHypothesis answer (obeys.2 answer trivial)⟩

end StreamTrack

namespace NatsDispatch

open StreamTrack

theorem stream_createStream (js : Nat) (known : Option StreamConfig) :
    (createStream js).Obeys inner (fun _ _ => True) known := by
  refine ⟨.inl rfl, fun answer _ => ?_⟩
  match answer with
  | none | some (.ok ()) => trivial
  | some (.error _) =>
    refine ⟨.inr rfl, fun answer _ => ?_⟩
    cases answer <;> trivial

theorem stream_updateSubjects (js : Nat) (info : StreamConfig) :
    (updateSubjects js info).Obeys inner (fun _ _ => True) (some info) := by
  unfold updateSubjects
  dsimp only
  split
  · refine ⟨⟨info, rfl, by simp [StreamConfig.provisioned, addMissing_eq]⟩, fun answer _ => ?_⟩
    cases answer <;> trivial
  · trivial

theorem stream_ensureDefaultStreams (js : Nat) (known : Option StreamConfig) :
    (ensureDefaultStreams js).Obeys inner (fun _ _ => True) known := by
  refine ⟨trivial, fun found _ => ?_⟩
  match found with
  | none => trivial
  | some (.error _) => exact stream_createStream js known
  | some (.ok ()) =>
    refine ⟨trivial, fun info _ => ?_⟩
    match info with
    | none => trivial
    | some (.error _) => exact stream_createStream js known
    | some (.ok info) => exact stream_updateSubjects js info

theorem stream_getJetstream (known : Option StreamConfig) :
    getJetstream.Obeys automaton (fun _ _ => True) known := by
  refine ⟨trivial, fun found _ => ?_⟩
  cases found with
  | some connection => trivial
  | none =>
    refine ⟨trivial, fun taken _ => ?_⟩
    cases taken with
    | false => trivial
    | true =>
      refine ⟨trivial, fun found _ => ?_⟩
      cases found with
      | some connection => exact ⟨trivial, fun _ _ => trivial⟩
      | none =>
        refine ⟨trivial, fun connected _ => ?_⟩
        match connected with
        | none | some (.error _) => exact ⟨trivial, fun _ _ => trivial⟩
        | some (.ok connection) =>
          refine (inner_lift (stream_ensureDefaultStreams connection _)).bind fun prepared _ _ => ?_
          cases prepared with
          | none => exact ⟨trivial, fun _ _ => trivial⟩
          | some _ => exact ⟨trivial, fun _ _ => ⟨trivial, fun _ _ => trivial⟩⟩

theorem stream_publishBytes (utf8Error : Bytes → String) (topic : String) (payload : Bytes)
    (known : Option StreamConfig) :
    (publishBytes utf8Error topic payload).Obeys automaton (fun _ _ => True) known := by
  unfold publishBytes
  split
  · trivial
  refine (stream_getJetstream known).bind fun got known _ => ?_
  match got with
  | none | some (.error _) => trivial
  | some (.ok js) =>
    refine ⟨trivial, fun published _ => ?_⟩
    match published with
    | none => trivial
    | some (.error _) => exact ⟨trivial, fun _ _ => trivial⟩
    | some (.ok ()) =>
      refine ⟨trivial, fun acked _ => ?_⟩
      match acked with
      | none | some (.error _) | some (.ok ()) => trivial

end NatsDispatch

/-! ## The broker -/

/-- What becomes of the stream.  What fails, or is dropped, may have come to pass all the same; what
    is answered is true. -/
def StreamEffect : (call : NatsCall) → Option StreamConfig → call.Answer → Option StreamConfig → Prop
  | .getInfo _ _, before, answer, after => after = before ∧ ∀ info, answer = some (.ok info) → before = some info
  | .updateStream _ config, before, answer, after =>
    (after = before ∧ answer ≠ some (.ok ())) ∨ (before ≠ none ∧ after = some config)
  | .getOrCreateStream _ config, before, answer, after =>
    (after = before ∧ (answer = some (.ok ()) → before ≠ none)) ∨ (before = none ∧ after = some config)
  | _, before, _, after => after = before

variable {ι κ ε σ : Type}

/-- Nobody but the gateways changes the stream. -/
structure StreamBroker (traffic : NatsTraffic ι κ ε σ) (stream : σ → Option StreamConfig) : Prop where
  effect : ∀ {thread call before answer after}, traffic.broker thread call before answer after →
    StreamEffect call (stream before) answer (stream after)
  environment : ∀ {event before after}, traffic.environment event before after → stream after = stream before

/-- A call after which the stream is known to be set up. -/
def Settles (start : Option StreamConfig) : Event (cellSignature natsSignature) → Prop
  | ⟨.other (.updateStream _ _), answer⟩ => answer = some (.ok ())
  | ⟨.other (.getInfo _ _), answer⟩ => ∃ info, answer = some (.ok info) ∧ targetSubjects ⊆ info.subjects
  | ⟨.other (.getOrCreateStream _ _), answer⟩ => start = none ∧ answer = some (.ok ())
  | _ => False

/-- What may be known of the stream: as it was at the start, or set up. -/
def Known (start : Option StreamConfig) (config : StreamConfig) : Prop := some config = start ∨ Provisions start config

/-- There is a stream, and it is set up. -/
def SetUp (start stream : Option StreamConfig) : Prop := ∃ config, stream = some config ∧ Provisions start config

section Effect

variable {start before after last : Option StreamConfig} {call : NatsCall} {answer : call.Answer}

/-- A stream that is as it was, or set up, stays so. -/
theorem StreamEffect.kept (effect : StreamEffect call before answer after)
    (allowed : StreamTrack.allowed last (.other call)) (isRead : ∀ config, last = some config → Known start config)
    (known : before = start ∨ SetUp start before) : after = start ∨ SetUp start after := by
  cases call with
  | getStream _ _ | publish _ _ _ | ack _ =>
    obtain rfl : after = before := effect
    exact known
  | getInfo _ _ =>
    obtain rfl : after = before := effect.1
    exact known
  | updateStream _ config =>
    rcases effect with ⟨rfl, _⟩ | ⟨_, rfl⟩
    · exact known
    · obtain ⟨info, wasRead, rfl⟩ := allowed
      exact .inr ⟨_, rfl, .again (isRead info wasRead)⟩
  | getOrCreateStream _ config =>
    rcases effect with ⟨rfl, _⟩ | ⟨absent, rfl⟩
    · exact known
    · rcases known with rfl | ⟨config, present, _⟩
      · subst absent
        exact .inr ⟨config, rfl, .of_created allowed⟩
      · cases absent.symm.trans present

/-- What is set up stays set up, and is so once a call has settled it. -/
theorem StreamEffect.setUp (effect : StreamEffect call before answer after)
    (allowed : StreamTrack.allowed last (.other call)) (isRead : ∀ config, last = some config → Known start config)
    (known : before = start ∨ SetUp start before)
    (settled : SetUp start before ∨ Settles start ⟨.other call, answer⟩) : SetUp start after := by
  cases call with
  | getStream _ _ | publish _ _ _ | ack _ =>
    obtain rfl : after = before := effect
    exact settled.resolve_right id
  | getInfo _ _ =>
    obtain ⟨rfl, isTrue⟩ := effect
    rcases settled with setUp | ⟨info, rfl, covers⟩
    · exact setUp
    · -- nothing is missing, so that what is there counts as set up
      have present := isTrue info rfl
      rcases known with rfl | setUp
      · have provisions := Provisions.of_provisioned info
        rw [StreamConfig.provisioned_of_covers covers, ← present] at provisions
        exact ⟨info, present, provisions⟩
      · exact setUp
  | updateStream _ config =>
    rcases effect with ⟨rfl, refused⟩ | ⟨_, rfl⟩
    · exact settled.resolve_right refused
    · obtain ⟨info, wasRead, rfl⟩ := allowed
      exact ⟨_, rfl, .again (isRead info wasRead)⟩
  | getOrCreateStream _ config =>
    rcases effect with ⟨rfl, present⟩ | ⟨absent, rfl⟩
    · rcases settled with setUp | ⟨noStart, accepted⟩
      · exact setUp
      · -- a stream that was not there at the start has been set up
        exact known.resolve_left fun same => present accepted (same.trans noStart)
    · rcases known with rfl | ⟨config, present, _⟩
      · subst absent
        exact ⟨config, rfl, .of_created allowed⟩
      · cases absent.symm.trans present

theorem StreamEffect.read (effect : StreamEffect call before answer after)
    (known : before = start ∨ SetUp start before) {config : StreamConfig}
    (isRead : StreamTrack.read ⟨.other call, answer⟩ = some config) : Known start config := by
  cases call with
  | getStream _ _ | publish _ _ _ | ack _ | updateStream _ _ | getOrCreateStream _ _ => cases isRead
  | getInfo _ _ =>
    match answer with
    | none | some (.error _) => cases isRead
    | some (.ok info) =>
      cases isRead
      have present := effect.2 config rfl
      rcases known with rfl | ⟨found, same, provisions⟩
      · exact .inl present.symm
      · obtain rfl := Option.some.inj (present.symm.trans same)
        exact .inr provisions

end Effect

namespace StreamBroker

variable [DecidableEq ι] [DecidableEq κ] {traffic : NatsTraffic ι κ ε σ} {stream : σ → Option StreamConfig}
  {state : σ} {config : Flight.Configuration natsSignature ι κ ε σ WriteResult}

omit [DecidableEq ι] in
theorem follows (traffic : NatsTraffic ι κ ε σ) :
    traffic.flight.system.Follows StreamTrack.automaton (fun _ _ _ => True) (fun _ => none) where
  obeys := fun _ => NatsDispatch.stream_publishBytes _ _ _ _
  answers := fun _ => trivial

theorem phaseInvariant (isBroker : StreamBroker traffic stream) (start : Option StreamConfig) :
    PhaseInvariant traffic.flight.system StreamTrack.automaton (fun _ => True) fun shared reads =>
      (stream shared.2 = start ∨ SetUp start (stream shared.2)) ∧
        ∀ thread config, reads thread = some config → Known start config where
  perform := by
    rintro thread call before answer after reads _ ⟨known, isRead⟩ allowed effect
    have readNow : ∀ config, StreamTrack.read ⟨call, answer⟩ = some config → Known start config := by
      intro config now
      cases call with
      | cell _ => cases now
      | other call =>
        obtain ⟨later, effect, rfl⟩ := effect
        exact (isBroker.effect effect).read known now
    refine ⟨?_, fun other config => ?_⟩
    · cases call with
      | cell _ =>
        obtain ⟨_, _, rfl⟩ := effect
        exact known
      | other call =>
        obtain ⟨later, effect, rfl⟩ := effect
        exact (isBroker.effect effect).kept allowed (isRead thread) known
    · by_cases same : other = thread
      · subst same
        rw [Function.update_self]
        intro now
        rcases Option.or_eq_some_iff.mp now with now | ⟨_, earlier⟩
        · exact readNow config now
        · exact isRead other config earlier
      · rw [Function.update_of_ne same]
        exact isRead other config
  environment := by
    rintro event before after reads _ ⟨known, isRead⟩ effect
    rw [isBroker.environment effect.1]
    exact ⟨known, isRead⟩

theorem known (isBroker : StreamBroker traffic stream)
    (reaches : traffic.flight.system.Reaches (Flight.initial state) config) :
    (stream config.moment.shared.2 = stream state ∨ SetUp (stream state) (stream config.moment.shared.2)) ∧
      ∀ thread found, StreamTrack.automaton.phaseOf none thread config.moment.history = some found →
        Known (stream state) found :=
  reaches.phaseInvariant (follows traffic) (isBroker.phaseInvariant (stream state)) (fun _ => trivial)
    ⟨.inl rfl, by simp⟩

/-- Once a call has settled it, the stream is and stays set up. -/
theorem setUp (isBroker : StreamBroker traffic stream)
    (reaches : traffic.flight.system.Reaches (Flight.initial state) config) {thread : ι}
    {event : Event (cellSignature natsSignature)} (happened : .perform thread event ∈ config.moment.history)
    (settles : Settles (stream state) event) : SetUp (stream state) (stream config.moment.shared.2) := by
  induction reaches with
  | initial => cases happened
  | @step config config' label earlier step inductionHypothesis =>
    rw [step.history_eq] at happened
    have before : SetUp (stream state) (stream config.moment.shared.2) ∨ label = .perform thread event := by
      rcases List.mem_append.mp happened with before | last
      · exact .inl (inductionHypothesis before)
      · exact .inr (List.mem_singleton.mp last).symm
    cases step with
    | start _ | finish _ => exact before.resolve_right (by simp)
    | environment effect =>
      simp only [Moment.push_shared, isBroker.environment effect.1]
      exact before.resolve_right (by simp)
    | @perform performer call next answer shared running effect =>
      have allowed := (earlier.obeys ((follows traffic).obeys performer) (follows traffic).answers running).1
      obtain ⟨known, isRead⟩ := isBroker.known earlier
      cases call with
      | cell _ =>
        obtain ⟨_, _, rfl⟩ := effect
        refine before.resolve_right ?_
        rintro ⟨⟩
        exact settles
      | other call =>
        obtain ⟨later, effect, rfl⟩ := effect
        refine (isBroker.effect effect).setUp allowed (isRead performer) known (before.imp_right ?_)
        rintro ⟨⟩
        exact settles

end StreamBroker

/-- At any time the stream is as it was at the start or set up, whoever may have been dropped or refused,
    and it is set up for good once a call has settled it. -/
theorem nats_stream_provisioned [DecidableEq ι] [DecidableEq κ] {traffic : NatsTraffic ι κ ε σ}
    {stream : σ → Option StreamConfig} (isBroker : StreamBroker traffic stream) {state : σ}
    {config : Flight.Configuration natsSignature ι κ ε σ WriteResult}
    (reaches : traffic.flight.system.Reaches (Flight.initial state) config) :
    (stream config.moment.shared.2 = stream state ∨ SetUp (stream state) (stream config.moment.shared.2)) ∧
      ∀ thread event, .perform thread event ∈ config.moment.history → Settles (stream state) event →
        SetUp (stream state) (stream config.moment.shared.2) :=
  ⟨(isBroker.known reaches).1, fun _ _ happened settles => isBroker.setUp reaches happened settles⟩

/-- A stream that somebody has set up for orders alone. -/
def ordersStream : StreamConfig := { name := "mutations", subjects := ["orders.>", "query.>"] }

theorem streamBroker_twoWrites : StreamBroker twoWrites id where
  effect := by
    intro thread call before answer after replies
    cases call with
    | getStream _ _ | publish _ _ _ | ack _ =>
      cases replies
      rfl
    | getInfo _ _ =>
      cases replies
      cases before with
      | none => exact ⟨rfl, by rintro _ ⟨⟩⟩
      | some found => exact ⟨rfl, by rintro _ ⟨⟩; rfl⟩
    | updateStream _ _ =>
      cases before with
      | none =>
        cases replies
        exact .inl ⟨rfl, by rintro ⟨⟩⟩
      | some found =>
        cases replies
        exact .inr ⟨by simp, rfl⟩
    | getOrCreateStream _ _ =>
      cases replies
      cases before with
      | none => exact .inr ⟨rfl, rfl⟩
      | some found => exact .inl ⟨rfl, by simp⟩
  environment := False.elim

theorem nats_stream_provisioned_orders :
    ∃ config, twoWrites.flight.system.Reaches (Flight.initial (some ordersStream)) config ∧
      config.threads 0 = .finished (some (.ok ())) ∧ SetUp (some ordersStream) config.moment.shared.2 := by
  obtain ⟨config, reaches, finished, updated⟩ : ∃ config,
      twoWrites.flight.system.Reaches (Flight.initial (some ordersStream)) config ∧
      config.threads 0 = .finished (some (.ok ())) ∧
      .perform 0 ⟨.other (.updateStream 0 ordersStream.provisioned), some (.ok ())⟩ ∈ config.moment.history :=
    ⟨_, twoWritesScheduler.run_reaches (List.replicate 13 (.thread 0 true)) .initial rfl, rfl,
      List.mem_of_getElem? (i := 7) rfl⟩
  exact ⟨config, reaches, finished, (nats_stream_provisioned streamBroker_twoWrites reaches).2 0 _ updated rfl⟩

end SpectraGQL.Telemetry
