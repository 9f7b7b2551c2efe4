import SpectraGQL.Interaction.Schedule
import SpectraGQL.Idempotency.RecordJson

/-! # Mutual exclusion over a shared Redis

Any number of gateway nodes issue the commands of `check_or_insert`, `complete` and
`remove` against one Redis server, interleaved one by one, and keys expire at any time.
`holders` follows the run: a call holds its key from the command that decided its `New`
until the key is written by `complete`, deleted, or expires.

The exclusion rests on `SET NX`.  It does not extend to a call whose `SET NX` failed and
whose `GET` then finds the key gone: that call is told `New` without storing anything.
-/

namespace SpectraGQL.Idempotency

open SpectraGQL.Core SpectraGQL.Http
open Interaction

variable {ι : Type}

/-- What the server does on its own: a key reaches its time to live. -/
inductive RedisEvent where
  | expire (key : String)

/-- The engine calls of all nodes, against one server whose commands succeed. -/
def redisSystem (backend : RedisBackend) (calls : ι → Operation) :
    System redisSignature ι RedisEvent RedisStore Reply where
  program := fun thread => backend.program (calls thread)
  meaning := fun _ call before answer after =>
    ∃ nowSecs, (answer, after) = RedisStore.apply nowSecs call before
  environment := fun event before after =>
    match event with
    | .expire key => after = Function.update before key none

abbrev RedisLabel (ι : Type) := Label redisSignature ι RedisEvent Reply

abbrev RedisMoment (ι : Type) := Moment redisSignature ι RedisEvent RedisStore Reply

/-! ## Who holds a key -/

/-- The call that a step tells `New`, and the key it is told about. -/
def grantedBy (codec : RecordCodec) : RedisLabel ι → Option (ι × String)
  | .perform thread ⟨.setNxEx key _ _, .ok true⟩ => some (thread, key)
  | .perform thread ⟨.get key, .ok none⟩ => some (thread, key)
  | .perform thread ⟨.get key, .ok (some rawJson)⟩ =>
    if codec.fromStr rawJson = none then some (thread, key) else none
  | _ => none

/-- The key whose record a step completes, removes or lets expire. -/
def releases : RedisLabel ι → Option String
  | .perform _ ⟨.setEx key _ _, _⟩ => some key
  | .perform _ ⟨.del key, _⟩ => some key
  | .environment (.expire key) => some key
  | _ => none

def holdStep (codec : RecordCodec) (holders : String → List ι) (label : RedisLabel ι) :
    String → List ι :=
  match grantedBy codec label, releases label with
  | some (thread, key), _ => Function.update holders key (thread :: holders key)
  | none, some key => Function.update holders key []
  | none, none => holders

/-- The calls that hold each key. -/
def holders (codec : RecordCodec) (history : List (RedisLabel ι)) : String → List ι :=
  history.foldl (holdStep codec) fun _ => []

@[simp] theorem holders_concat (codec : RecordCodec) (history : List (RedisLabel ι))
    (label : RedisLabel ι) :
    holders codec (history ++ [label]) = holdStep codec (holders codec history) label := by
  simp [holders]

/-- A `GET`, sent after a failed `SET NX`, that finds the key gone. -/
def isVanished : RedisLabel ι → Bool
  | .perform _ ⟨.get _, .ok none⟩ => true
  | _ => false

/-- No `GET` finds its key gone. -/
def NoneVanished (history : List (RedisLabel ι)) : Prop := ∀ label ∈ history, isVanished label = false

instance (history : List (RedisLabel ι)) : Decidable (NoneVanished history) :=
  inferInstanceAs (Decidable (∀ label ∈ history, isVanished label = false))

namespace RedisRun

variable (codec : RecordCodec)

/-! ## The invariant -/

/-- What is stored can be read, and what is held is stored, by one holder. -/
structure Inv (moment : RedisMoment ι) : Prop where
  readable : ∀ key entry, moment.shared key = some entry →
    ∃ record, codec.fromStr entry.value = some record
  single : ∀ key, (holders codec moment.history key).length ≤ 1
  stored : ∀ key, holders codec moment.history key ≠ [] → moment.shared key ≠ none

variable {codec} {moment : RedisMoment ι} {label : RedisLabel ι} {store : RedisStore}

/-- A step that touches neither the store nor the holders. -/
theorem Inv.silent (inv : Inv codec moment) (noGrant : grantedBy codec label = none)
    (noRelease : releases label = none) : Inv codec (moment.push moment.shared label) := by
  have same : holders codec (moment.history ++ [label]) = holders codec moment.history := by
    simp [holdStep, noGrant, noRelease]
  refine ⟨inv.readable, fun key => ?_, fun key held => ?_⟩
  · rw [Moment.push_history, same]
    exact inv.single key
  · rw [Moment.push_history, same] at held
    exact inv.stored key held

/-- `SET NX` on an absent key: the caller becomes its only holder. -/
theorem Inv.grant {thread : ι} {key : String} {entry : RedisEntry} (inv : Inv codec moment)
    (absent : moment.shared key = none) (granted : grantedBy codec label = some (thread, key))
    (readable : ∃ record, codec.fromStr entry.value = some record) :
    Inv codec (moment.push (Function.update moment.shared key (some entry)) label) := by
  -- a key with a holder is stored
  have free : holders codec moment.history key = [] := by
    by_contra held
    exact inv.stored key held absent
  have now : holders codec (moment.history ++ [label]) =
      Function.update (holders codec moment.history) key [thread] := by
    simp [holdStep, granted, free]
  refine ⟨fun other stored found => ?_, fun other => ?_, fun other held => ?_⟩
  · by_cases same : other = key
    · subst same
      simp only [Moment.push_shared, Function.update_self, Option.some.injEq] at found
      exact found ▸ readable
    · simp only [Moment.push_shared, Function.update_of_ne same] at found
      exact inv.readable other stored found
  · rw [Moment.push_history, now]
    by_cases same : other = key
    · subst same
      simp
    · rw [Function.update_of_ne same]
      exact inv.single other
  · rw [Moment.push_history, now] at held
    by_cases same : other = key
    · subst same
      simp
    · rw [Function.update_of_ne same] at held
      simpa [same] using inv.stored other held

/-- A write, a deletion or an expiry ends every hold on its key. -/
theorem Inv.release {key : String} {entry : Option RedisEntry} (inv : Inv codec moment)
    (noGrant : grantedBy codec label = none) (released : releases label = some key)
    (readable : ∀ stored, entry = some stored → ∃ record, codec.fromStr stored.value = some record) :
    Inv codec (moment.push (Function.update moment.shared key entry) label) := by
  have now : holders codec (moment.history ++ [label]) =
      Function.update (holders codec moment.history) key [] := by
    simp [holdStep, noGrant, released]
  refine ⟨fun other stored found => ?_, fun other => ?_, fun other held => ?_⟩
  · by_cases same : other = key
    · subst same
      simp only [Moment.push_shared, Function.update_self] at found
      exact readable stored found
    · simp only [Moment.push_shared, Function.update_of_ne same] at found
      exact inv.readable other stored found
  · rw [Moment.push_history, now]
    by_cases same : other = key
    · subst same
      simp
    · rw [Function.update_of_ne same]
      exact inv.single other
  · rw [Moment.push_history, now] at held
    by_cases same : other = key
    · subst same
      simp at held
    · rw [Function.update_of_ne same] at held
      simpa [same] using inv.stored other held

/-! ## The discipline -/

/-- The call's own in-progress record is what its key holds. -/
def HoldsOwnRecord (backend : RedisBackend) (call : Operation) (store : RedisStore) : Prop :=
  ∃ key hlc startedAtSecs entry, call = .checkOrInsert key hlc ∧
    store (backend.redisKey key) = some entry ∧
    backend.codec.fromStr entry.value = some (.inProgress hlc startedAtSecs)

/-- The call has been told `New` by one of its commands. -/
def Granted (codec : RecordCodec) (thread : ι) (moment : RedisMoment ι) : Prop :=
  ∃ label ∈ moment.history, ∃ key, grantedBy codec label = some (thread, key)

theorem Granted.later {thread : ι} {before after : RedisMoment ι}
    (granted : Granted codec thread before) (later : before.history <+: after.history) :
    Granted codec thread after := by
  obtain ⟨label, member, grant⟩ := granted
  exact ⟨label, later.subset member, grant⟩

theorem Granted.now {thread : ι} {key : String} (granted : grantedBy codec label = some (thread, key)) :
    Granted codec thread (moment.push store label) :=
  ⟨label, by simp, key, granted⟩

variable (backend : RedisBackend) (calls : ι → Operation)

/-- The argument for runs in which no `GET` finds its key gone. -/
def discipline : Discipline (redisSystem backend calls) where
  assume := NoneVanished
  inv := Inv backend.codec
  rely := fun _ before after => before.history <+: after.history
  guar := fun thread event before after =>
    Inv backend.codec after ∧ before.history <+: after.history ∧
      ∀ key, grantedBy backend.codec (.perform thread event) = some (thread, key) →
        HoldsOwnRecord backend (calls thread) after.shared
  post := fun thread reply moment => reply = .outcome .new → Granted backend.codec thread moment
  assume_init := fun assumed label member => assumed label (List.mem_append_left _ member)
  rely_refl := fun _ _ => List.prefix_rfl
  rely_trans := List.IsPrefix.trans
  inv_perform := fun _ guarantee => guarantee.1
  rely_perform := fun _ guarantee _ => guarantee.2.1
  inv_start := fun inv _ => inv.silent rfl rfl
  rely_start := fun _ => List.prefix_append _ _
  inv_finish := fun inv _ => inv.silent rfl rfl
  rely_finish := fun _ _ => List.prefix_append _ _
  inv_environment := by
    intro event moment shared inv effect _
    cases event with
    | expire key =>
      subst effect
      exact inv.release rfl rfl (by simp)
  rely_environment := fun _ _ _ _ => List.prefix_append _ _
  post_stable := fun granted later _ isNew => (granted isNew).later later

/-! ## Every program keeps it -/

abbrev Meets {β : Type} (thread : ι) (post : β → RedisMoment ι → Prop) (program : RedisProg β)
    (moment : RedisMoment ι) : Prop :=
  (discipline backend calls).Safe thread post program moment

section Programs

variable {backend calls} {thread : ι}

theorem meets_currentUnixSecs :
    Meets backend calls thread (fun _ _ => True) RedisProg.currentUnixSecs moment := by
  apply Discipline.Safe.perform
  · exact fun _ _ _ _ _ => trivial
  · intro now _ inv nowSecs shared effect _
    obtain ⟨_, same⟩ := effect
    obtain ⟨_, rfl⟩ := Prod.mk.inj same
    exact ⟨⟨inv.silent rfl rfl, List.prefix_append _ _, fun _ grant => nomatch grant⟩, trivial⟩

theorem meets_getConnection :
    Meets backend calls thread (fun connected _ => connected = true) RedisProg.getConnection
      moment := by
  apply Discipline.Safe.perform
  · exact fun _ _ _ connected _ => connected
  · intro now _ inv connected shared effect _
    obtain ⟨_, same⟩ := effect
    obtain ⟨isConnected, rfl⟩ := Prod.mk.inj same
    exact ⟨⟨inv.silent rfl rfl, List.prefix_append _ _, fun _ grant => nomatch grant⟩, isConnected⟩

/-- `SET EX` of a record. -/
theorem meets_setEx {record : IdempotencyRecord} {text : String} (key : String) (ttlSecs : Nat)
    (readable : backend.codec.fromStr text = some record) :
    Meets backend calls thread (fun _ _ => True) (RedisProg.setEx key text ttlSecs) moment := by
  apply Discipline.Safe.perform
  · exact fun _ _ _ _ _ => trivial
  · intro now _ inv answer shared effect _
    obtain ⟨_, same⟩ := effect
    obtain ⟨_, rfl⟩ := Prod.mk.inj same
    refine ⟨⟨inv.release rfl rfl ?_, List.prefix_append _ _, fun _ grant => nomatch grant⟩, trivial⟩
    intro stored isStored
    exact ⟨record, Option.some.inj isStored ▸ readable⟩

theorem meets_del (key : String) :
    Meets backend calls thread (fun _ _ => True) (RedisProg.del key) moment := by
  apply Discipline.Safe.perform
  · exact fun _ _ _ _ _ => trivial
  · intro now _ inv answer shared effect _
    obtain ⟨_, same⟩ := effect
    obtain ⟨_, rfl⟩ := Prod.mk.inj same
    exact ⟨⟨inv.release rfl rfl (by simp), List.prefix_append _ _, fun _ grant => nomatch grant⟩,
      trivial⟩

/-- `SET NX EX`: it either stores the caller's record, or does nothing. -/
theorem meets_setNxEx {key text : String} {hlc : HlcTimestamp} {startedAtSecs : Nat} (ttlSecs : Nat)
    (isCall : calls thread = .checkOrInsert key hlc)
    (readable : backend.codec.fromStr text = some (.inProgress hlc startedAtSecs)) :
    Meets backend calls thread
      (fun answer now => (answer = .ok true ∧ Granted backend.codec thread now) ∨ answer = .ok false)
      (RedisProg.setNxEx (backend.redisKey key) text ttlSecs) moment := by
  apply Discipline.Safe.perform
  · intro answer before after known later
    exact known.imp (fun granted => ⟨granted.1, granted.2.later later⟩) id
  · intro now _ inv answer shared effect _
    obtain ⟨nowSecs, same⟩ := effect
    cases found : now.shared (backend.redisKey key) with
    | none =>
      simp only [RedisStore.apply, found, Prod.mk.injEq] at same
      obtain ⟨rfl, rfl⟩ := same
      refine ⟨⟨inv.grant found rfl ⟨_, readable⟩, List.prefix_append _ _, ?_⟩,
        .inl ⟨rfl, Granted.now rfl⟩⟩
      intro _ _
      exact ⟨key, hlc, startedAtSecs, ⟨text, nowSecs + ttlSecs⟩, isCall, by simp, readable⟩
    | some entry =>
      simp only [RedisStore.apply, found, Prod.mk.injEq] at same
      obtain ⟨rfl, rfl⟩ := same
      exact ⟨⟨inv.silent rfl rfl, List.prefix_append _ _, fun _ grant => nomatch grant⟩, .inr rfl⟩

/-- `GET` of a key: by assumption it is there, and what is stored can be read. -/
theorem meets_get (key : String) :
    Meets backend calls thread
      (fun answer _ => ∃ rawJson record, answer = .ok (some rawJson) ∧
        backend.codec.fromStr rawJson = some record)
      (RedisProg.get key) moment := by
  apply Discipline.Safe.perform
  · exact fun _ _ _ known _ => known
  · intro now _ inv answer shared effect present
    obtain ⟨_, same⟩ := effect
    cases found : now.shared key with
    | none =>
      simp only [RedisStore.apply, found, Option.map_none, Prod.mk.injEq] at same
      obtain ⟨rfl, rfl⟩ := same
      cases present _ (List.mem_append_right _ (List.mem_singleton_self _))
    | some entry =>
      simp only [RedisStore.apply, found, Option.map_some, Prod.mk.injEq] at same
      obtain ⟨rfl, rfl⟩ := same
      obtain ⟨record, readable⟩ := inv.readable key entry found
      have noGrant : grantedBy backend.codec
          (.perform thread ⟨.get key, .ok (some entry.value)⟩ : RedisLabel ι) = none := by
        simp [grantedBy, readable]
      refine ⟨⟨inv.silent noGrant rfl, List.prefix_append _ _, fun _ grant => ?_⟩,
        entry.value, record, rfl, readable⟩
      rw [noGrant] at grant
      cases grant

theorem meets_checkOrInsert (roundTrips : backend.codec.RoundTrips) {key : String}
    {hlc : HlcTimestamp} (isCall : calls thread = .checkOrInsert key hlc) :
    Meets backend calls thread
      (fun outcome now => outcome = .new → Granted backend.codec thread now)
      (backend.checkOrInsert key hlc) moment := by
  apply Discipline.Safe.bind meets_currentUnixSecs
  intro nowSecs _ _ _
  obtain ⟨text, written, readable⟩ := roundTrips (.inProgress hlc nowSecs)
  simp only [written]
  apply Discipline.Safe.bind meets_getConnection
  intro connected _ _ isConnected
  simp only [isConnected, if_true]
  apply Discipline.Safe.bind (meets_setNxEx backend.ttlSecs isCall readable)
  intro answer now _ known
  rcases known with ⟨rfl, granted⟩ | rfl
  · exact Discipline.Safe.ret fun after later _ _ => granted.later later
  · apply Discipline.Safe.bind (meets_get (backend.redisKey key))
    intro answer _ _ found
    obtain ⟨rawJson, record, rfl, readable⟩ := found
    simp only [readable]
    exact Discipline.Safe.ret fun _ _ _ isNew => absurd isNew record.outcome_ne_new

theorem meets_complete (roundTrips : backend.codec.RoundTrips) (key : String) (hlc : HlcTimestamp)
    (statusCode : UInt16) (headers : HeaderMap) (body : String) :
    Meets backend calls thread (fun _ _ => True) (backend.complete key hlc statusCode headers body)
      moment := by
  apply Discipline.Safe.bind meets_currentUnixSecs
  intro nowSecs _ _ _
  obtain ⟨text, written, readable⟩ :=
    roundTrips (.completed hlc statusCode (headerPairs headers) body nowSecs)
  simp only [written]
  apply Discipline.Safe.bind meets_getConnection
  intro connected _ _ isConnected
  simp only [isConnected, if_true]
  apply Discipline.Safe.bind (meets_setEx _ _ readable)
  exact fun _ _ _ _ => Discipline.Safe.ret fun _ _ _ => trivial

theorem meets_remove (key : String) :
    Meets backend calls thread (fun _ _ => True) (backend.remove key) moment := by
  apply Discipline.Safe.bind meets_getConnection
  intro connected _ _ isConnected
  simp only [isConnected, if_true]
  apply Discipline.Safe.bind (meets_del _)
  exact fun _ _ _ _ => Discipline.Safe.ret fun _ _ _ => trivial

theorem meets_program (roundTrips : backend.codec.RoundTrips) :
    Meets backend calls thread
      (fun reply now => reply = .outcome .new → Granted backend.codec thread now)
      (backend.program (calls thread)) moment := by
  cases isCall : calls thread with
  | checkOrInsert key hlc =>
    apply Discipline.Safe.bind (meets_checkOrInsert roundTrips isCall)
    intro outcome now _ granted
    refine Discipline.Safe.ret fun after later _ isNew => ?_
    exact (granted (by simpa using isNew)).later later
  | complete key hlc statusCode headers body =>
    apply Discipline.Safe.bind (meets_complete roundTrips key hlc statusCode headers body)
    exact fun _ _ _ _ => Discipline.Safe.ret fun _ _ _ isNew => nomatch isNew
  | remove key =>
    apply Discipline.Safe.bind (meets_remove key)
    exact fun _ _ _ _ => Discipline.Safe.ret fun _ _ _ isNew => nomatch isNew

end Programs

theorem inv_initial : Inv codec (⟨RedisStore.empty, []⟩ : RedisMoment ι) where
  readable := fun _ _ found => nomatch found
  single := fun _ => Nat.zero_le 1
  stored := fun _ held => absurd rfl held

end RedisRun

/-! ## Mutual exclusion -/

variable [DecidableEq ι]

/-- In every run in which no `GET` after a failed `SET NX` finds its key gone: no key has
    two holders, a call that returned `New` has been granted its key by one of its own
    commands, and a command that grants a key leaves the caller's own record in it. -/
theorem redis_exclusive (backend : RedisBackend) (roundTrips : backend.codec.RoundTrips)
    (calls : ι → Operation) {config : Config redisSignature ι RedisEvent RedisStore Reply}
    (reaches : (redisSystem backend calls).Reaches RedisStore.empty config)
    (noneVanished : NoneVanished config.moment.history) :
    (∀ key, (holders backend.codec config.moment.history key).length ≤ 1) ∧
    (∀ thread, config.threads thread = .finished (.outcome .new) →
      RedisRun.Granted backend.codec thread config.moment) ∧
    ∀ thread event next key,
      (redisSystem backend calls).Step config (.perform thread event) next →
      NoneVanished next.moment.history →
      grantedBy backend.codec (.perform thread event : RedisLabel ι) = some (thread, key) →
      RedisRun.HoldsOwnRecord backend (calls thread) next.moment.shared := by
  have safe : ∀ thread moment, (RedisRun.discipline backend calls).inv moment →
      Fresh thread moment.history →
      (RedisRun.discipline backend calls).Safe thread
        ((RedisRun.discipline backend calls).post thread) (backend.program (calls thread))
        (moment.push moment.shared (.start thread)) :=
    fun _ _ _ _ => RedisRun.meets_program roundTrips
  obtain ⟨inv, threads⟩ := (RedisRun.discipline backend calls).sound
    RedisRun.inv_initial safe reaches noneVanished
  refine ⟨inv.single, fun thread finished => ?_, ?_⟩
  · have ok := threads thread
    rw [finished] at ok
    exact ok rfl
  · intro thread event next key step stillPresent granted
    exact ((RedisRun.discipline backend calls).guarantees
      RedisRun.inv_initial safe reaches step stillPresent).2.2 key granted

/-! ## The call that finds its key gone -/

def redisScheduler (backend : RedisBackend) (calls : ι → Operation) :
    Scheduler (redisSystem backend calls) Nat where
  answer := fun nowSecs _ call store => some (RedisStore.apply nowSecs call store)
  event := fun event store =>
    match event with
    | .expire key => some (Function.update store key none)
  answer_sound := by
    intro nowSecs thread call before result answered
    exact ⟨nowSecs, (Option.some.inj answered).symm⟩
  event_sound := by
    intro event before after happened
    cases event with
    | expire key => exact (Option.some.inj happened).symm

/-- Three calls lock one key, and a fourth releases the first lock. -/
def contendingCalls : Fin 4 → Operation
  | 0 => .checkOrInsert "order-1" ⟨1000, 0⟩
  | 1 => .checkOrInsert "order-1" ⟨1000, 1⟩
  | 2 => .checkOrInsert "order-1" ⟨1000, 2⟩
  | 3 => .remove "order-1"

def contendingBackend : RedisBackend := ⟨300, "spectra:idempotency", RecordJson.codec⟩

theorem redis_exclusive_contended : ∃ config,
    (redisSystem contendingBackend contendingCalls).Reaches RedisStore.empty config ∧
      config.threads 0 = .finished (.outcome .new) ∧
      config.threads 1 = .finished (.outcome (.conflict ⟨1000, 0⟩)) ∧
      ∀ key, (holders contendingBackend.codec config.moment.history key).length ≤ 1 := by
  -- call 0 locks the key, and call 1 is told about the conflict
  have run : ∃ config, (redisSystem contendingBackend contendingCalls).Reaches RedisStore.empty config ∧
      NoneVanished config.moment.history ∧ config.threads 0 = .finished (.outcome .new) ∧
      config.threads 1 = .finished (.outcome (.conflict ⟨1000, 0⟩)) :=
    ⟨_, (redisScheduler contendingBackend contendingCalls).run_reaches
      ([0, 0, 0, 0, 0, 1, 1, 1, 1, 1, 1].map fun thread => .thread thread 5) .initial rfl,
      by decide, rfl, rfl⟩
  obtain ⟨config, reaches, noneVanished, first, second⟩ := run
  exact ⟨config, reaches, first, second,
    (redis_exclusive contendingBackend RecordJson.roundTrips_codec contendingCalls reaches noneVanished).1⟩

/-- Call 0 locks the key, call 1 fails to, the lock is removed, call 1 looks the key up,
    and call 2 locks it. -/
def contendingMoves : List (Move (Fin 4) RedisEvent Nat) :=
  [0, 0, 0, 0, 0, 1, 1, 1, 1, 3, 3, 3, 3, 1, 1, 2, 2, 2, 2, 2].map fun thread => .thread thread 5

theorem redis_two_holders : ∃ config,
    (redisSystem contendingBackend contendingCalls).Reaches RedisStore.empty config ∧
      holders contendingBackend.codec config.moment.history
        (contendingBackend.redisKey "order-1") = [2, 1] ∧
      config.threads 1 = .finished (.outcome .new) ∧ config.threads 2 = .finished (.outcome .new) :=
  ⟨_, (redisScheduler contendingBackend contendingCalls).run_reaches contendingMoves .initial
    rfl, rfl, rfl, rfl⟩

end SpectraGQL.Idempotency
