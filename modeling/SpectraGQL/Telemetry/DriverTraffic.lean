import SpectraGQL.Telemetry.Drivers

/-! # Many dispatches over one connection

Dispatches of any number of handles run side by side, at brokers of which nothing is known.
`driver_single_connection` says that each handle connects once, and that everything it sends goes
over that connection; `driver_told` says what a dispatch tells its caller: an error of writing comes
from the broker, with any other error nothing has been sent.
-/

namespace SpectraGQL.Telemetry

open Interaction SpectraGQL.Http SpectraGQL.Protocol

variable {ι κ ε σ : Type}

/-! ## Keeping the connection -/

/-- What a dispatch asks of its broker goes over the connection that it has been given. -/
abbrev KeepsConnection {α : Type} (post : α → Holding → Prop) (program : CellProg driverSignature α)
    (holding : Holding) : Prop :=
  program.Obeys (Holding.automaton DriverCall.connection) post holding

abbrev Outside {α : Type} (_ : α) (holding : Holding) : Prop := holding.slot = .outside

theorem allowed_of_given {connection : Nat} {holding : Holding} {call : DriverCall}
    (outside : holding.slot = .outside) (given : holding.given = some connection)
    (isOver : call.connection = some connection) :
    holding.allowed DriverCall.connection (.other call : CellCall driverSignature) := by
  intro number isNumber
  rw [isOver] at isNumber
  exact ⟨outside, given.trans isNumber⟩

namespace DriverSteps

variable {steps : DriverSteps} {message : DriverMessage} {connection : Nat} {holding : Holding}

theorem keeps_openFor (outside : holding.slot = .outside) (given : holding.given = some connection) :
    KeepsConnection (fun _ after => after.slot = .outside ∧ after.given = some connection)
      (steps.openFor connection message) holding := by
  unfold openFor
  split
  · exact ⟨outside, given⟩
  · refine Holding.obeys_other (allowed_of_given outside given rfl) fun answer used => ?_
    match answer with
    | none | some (.error _) | some (.ok ()) => exact ⟨outside, given⟩

theorem keeps_confirmation (outside : holding.slot = .outside) (given : holding.given = some connection) :
    KeepsConnection Outside (steps.confirmation connection) holding := by
  unfold confirmation
  split
  · refine Holding.obeys_other (allowed_of_given outside given rfl) fun answer used => ?_
    match answer with
    | none | some _ => exact outside
  · exact outside

theorem keeps_sendOver : KeepsConnection Outside (steps.sendOver message) .start := by
  refine (Holding.obeys_getOrTryInit false none).bind fun got holding known => ?_
  obtain ⟨outside, given⟩ := known
  match got with
  | none | some (.error _) => exact outside
  | some (.ok connection) =>
    refine (keeps_openFor outside (given connection rfl)).bind fun opened after known => ?_
    obtain ⟨outside, given⟩ := known
    match opened with
    | none | some (.error _) => exact outside
    | some (.ok ()) =>
      refine Holding.obeys_other (allowed_of_given outside given rfl) fun answer used => ?_
      match answer with
      | none | some (.error _) => exact outside
      | some (.ok ()) => exact keeps_confirmation outside given

end DriverSteps

theorem Driver.keeps_dispatch (driver : Driver) (encoder : JsonEventEncoder) (op : DispatchOp) :
    KeepsConnection Outside (driver.dispatch encoder op) .start := by
  unfold Driver.dispatch
  split
  · rfl
  · exact DriverSteps.keeps_sendOver

/-! ## What a dispatch does -/

abbrev DriverAct := DriverCall × Option (Except String Unit)

def DriverAct.ofEvent : Event (cellSignature driverSignature) → Option DriverAct
  | ⟨.other call, answer⟩ => some (call, answer)
  | ⟨.cell _, _⟩ => none

def DriverAct.isSend : DriverAct → Bool
  | (.send _ _, _) => true
  | (.openChannel _ _, _) | (.confirm _, _) => false

/-- What a dispatch has asked of its broker, with the answers, tells how it went. -/
structure TellsDispatch (steps : DriverSteps) (built : Except WriteFailure DriverMessage) (acts : List DriverAct)
    (result : WriteResult) : Prop where
  once : acts.countP DriverAct.isSend ≤ 1
  own : ∀ connection message answer, (.send connection message, answer) ∈ acts → built = .ok message
  /-- Only what the broker has taken is told to be sent; the confirmation may be anything. -/
  success : result = some (.ok ()) ↔ ∃ connection message, (.send connection message, some (.ok ())) ∈ acts ∧
    (steps.confirms = true → ∃ answer, (.confirm connection, some answer) ∈ acts)
  refused : ∀ failure, result = some (.error failure) → failure.errorType = .writeError →
    ∃ connection message error, (.send connection message, some (.error error)) ∈ acts ∧
      failure.context = steps.sendError ++ error
  unsent : ∀ failure, result = some (.error failure) → failure.errorType ≠ .writeError →
    ∀ connection message answer, (.send connection message, answer) ∉ acts

/-! ## Telling how it went -/

namespace TellsDispatch

variable {steps : DriverSteps} {built : Except WriteFailure DriverMessage} {message : DriverMessage}
  {connection : Nat} {acts before after : List DriverAct} {result : WriteResult}

/-- Nothing has been sent. -/
def Quiet (acts : List DriverAct) : Prop := ∀ act ∈ acts, act.isSend = false

theorem Quiet.countP_eq_zero (quiet : Quiet acts) : acts.countP DriverAct.isSend = 0 := by
  rw [List.countP_eq_zero]
  intro act member
  simp [quiet act member]

theorem of_quiet (quiet : Quiet acts)
    (failed : result = none ∨ ∃ failure, result = some (.error failure) ∧ failure.errorType ≠ .writeError) :
    TellsDispatch steps built acts result where
  once := by rw [Quiet.countP_eq_zero quiet]; exact Nat.zero_le 1
  own := fun _ _ _ member => absurd (quiet _ member) (by simp [DriverAct.isSend])
  success := by
    constructor
    · rintro rfl
      rcases failed with gone | ⟨failure, gone, -⟩ <;> cases gone
    · rintro ⟨_, _, member, -⟩
      exact absurd (quiet _ member) (by simp [DriverAct.isSend])
  refused := by
    rintro failure rfl isWrite
    rcases failed with gone | ⟨_, same, notWrite⟩
    · cases gone
    · cases same
      exact absurd isWrite notWrite
  unsent := fun _ _ _ _ _ _ member => absurd (quiet _ member) (by simp [DriverAct.isSend])

/-- One message has been sent, and `answer` is the answer of the broker. -/
theorem of_sent {answer : Option (Except String Unit)} (quietBefore : Quiet before) (quietAfter : Quiet after)
    (success : result = some (.ok ()) ↔ answer = some (.ok ()) ∧
      (steps.confirms = true → ∃ confirmed, (.confirm connection, some confirmed) ∈ after))
    (opening : ∀ answer, (.confirm connection, answer) ∉ before)
    (refused : ∀ failure, result = some (.error failure) → failure.errorType = .writeError ∧
      ∃ error, answer = some (.error error) ∧ failure.context = steps.sendError ++ error) :
    TellsDispatch steps (.ok message) (before ++ (.send connection message, answer) :: after) result := by
  have isSent : ∀ {number other given}, (.send number other, given) ∈ before ++
      (.send connection message, answer) :: after → number = connection ∧ other = message ∧ given = answer := by
    intro number other given member
    rcases List.mem_append.mp member with early | late
    · exact absurd (quietBefore _ early) (by simp [DriverAct.isSend])
    · rcases List.mem_cons.mp late with same | later
      · cases same
        exact ⟨rfl, rfl, rfl⟩
      · exact absurd (quietAfter _ later) (by simp [DriverAct.isSend])
  have sent : (.send connection message, answer) ∈ before ++ (.send connection message, answer) :: after := by simp
  constructor
  · rw [List.countP_append, List.countP_cons, Quiet.countP_eq_zero quietBefore, Quiet.countP_eq_zero quietAfter]
    simp [DriverAct.isSend]
  · intro number other given member
    rw [(isSent member).2.1]
  · rw [success]
    constructor
    · rintro ⟨rfl, confirmed⟩
      refine ⟨connection, message, sent, fun confirms => ?_⟩
      obtain ⟨given, member⟩ := confirmed confirms
      exact ⟨given, by simp [member]⟩
    · rintro ⟨number, other, member, confirmed⟩
      obtain ⟨rfl, rfl, same⟩ := isSent member
      refine ⟨same.symm, fun confirms => ?_⟩
      obtain ⟨given, member⟩ := confirmed confirms
      refine ⟨given, ?_⟩
      simpa [opening] using member
  · intro failure failed _
    obtain ⟨-, error, isError, context⟩ := refused failure failed
    rw [isError] at sent
    exact ⟨connection, message, error, by rw [isError]; exact sent, context⟩
  · intro failure failed notWrite
    exact absurd (refused failure failed).1 notWrite

end TellsDispatch

abbrev Records {α : Type} (post : α → List DriverAct → Prop) (program : CellProg driverSignature α)
    (acts : List DriverAct) : Prop :=
  program.Obeys (Automaton.recording DriverAct.ofEvent) post acts

/-- To get a connection is nothing to tell. -/
theorem records_getOrTryInit (acts : List DriverAct) :
    Records (fun _ after => after = acts) getOrTryInit acts := by
  refine (Prog.Only.obeys only_getOrTryInit (Prog.returns_true _) ?_).mono fun _ _ known => known.2
  rintro call ⟨op, rfl⟩
  exact ⟨trivial, fun answer => List.append_nil acts⟩

/-- A dispatch has done no more than to open its channel. -/
def Opened (connection : Nat) (message : DriverMessage) (acts : List DriverAct) : Prop :=
  ∀ act ∈ acts, ∃ answer, act = (.openChannel connection message, answer)

theorem Opened.quiet {connection : Nat} {message : DriverMessage} {acts : List DriverAct}
    (opened : Opened connection message acts) : TellsDispatch.Quiet acts := by
  intro act member
  obtain ⟨answer, rfl⟩ := opened act member
  rfl

namespace DriverSteps

variable {steps : DriverSteps} {message : DriverMessage}

theorem records_openFor (connection : Nat) :
    Records (fun _ after => Opened connection message after) (steps.openFor connection message) [] := by
  unfold openFor
  split
  · exact fun act member => absurd member List.not_mem_nil
  · refine ⟨trivial, fun answer _ => ?_⟩
    have opened : Opened connection message [(.openChannel connection message, answer)] := by
      intro act member
      exact ⟨answer, List.mem_singleton.mp member⟩
    match answer with
    | none | some (.error _) | some (.ok ()) => exact opened

theorem records_sendOver : Records (fun result acts => TellsDispatch steps (.ok message) acts result)
    (steps.sendOver message) [] := by
  refine (records_getOrTryInit []).bind fun got acts known => ?_
  subst known
  match got with
  | none => exact .of_quiet (by simp [TellsDispatch.Quiet]) (.inl rfl)
  | some (.error error) => exact .of_quiet (by simp [TellsDispatch.Quiet]) (.inr ⟨_, rfl, by simp⟩)
  | some (.ok connection) =>
    refine (records_openFor connection).bind fun ready acts opened => ?_
    match ready with
    | none => exact .of_quiet opened.quiet (.inl rfl)
    | some (.error error) => exact .of_quiet opened.quiet (.inr ⟨_, rfl, by simp⟩)
    | some (.ok ()) =>
      refine ⟨trivial, fun answer _ => ?_⟩
      have opening : ∀ answer, (.confirm connection, answer) ∉ acts := by
        intro answer member
        obtain ⟨_, same⟩ := opened _ member
        cases same
      match answer with
      | none => exact .of_sent opened.quiet (by simp [TellsDispatch.Quiet]) (by simp) opening (by simp)
      | some (.error error) =>
        exact .of_sent opened.quiet (by simp [TellsDispatch.Quiet]) (by simp) opening (by simp)
      | some (.ok ()) =>
        show Records _ (steps.confirmation connection) (acts ++ [(.send connection message, some (.ok ()))])
        unfold confirmation
        split
        · rename_i confirms
          refine ⟨trivial, fun confirmed _ => ?_⟩
          have quiet : TellsDispatch.Quiet [(.confirm connection, confirmed)] := by
            simp [TellsDispatch.Quiet, DriverAct.isSend]
          match confirmed with
          | none =>
            show TellsDispatch steps (.ok message) (acts ++ [(.send connection message, some (.ok ()))] ++
              [(.confirm connection, none)]) none
            rw [List.append_assoc]
            exact .of_sent opened.quiet quiet (by simp [confirms]) opening (by simp)
          | some given =>
            show TellsDispatch steps (.ok message) (acts ++ [(.send connection message, some (.ok ()))] ++
              [(.confirm connection, some given)]) (some (.ok ()))
            rw [List.append_assoc]
            exact .of_sent opened.quiet quiet (by simp [confirms]) opening (by simp)
        · rename_i silent
          exact .of_sent opened.quiet (by simp [TellsDispatch.Quiet]) (by simp [silent]) opening (by simp)

end DriverSteps

theorem Driver.records_dispatch (driver : Driver) (encoder : JsonEventEncoder) (op : DispatchOp) :
    Records (fun result acts => TellsDispatch driver.steps (driver.messageOf encoder op) acts result)
      (driver.dispatch encoder op) [] := by
  unfold Driver.dispatch
  cases built : driver.messageOf encoder op with
  | error failure =>
    have notWrite : failure.errorType ≠ .writeError := driver.notWrite_of_messageOf built
    exact .of_quiet (by simp [TellsDispatch.Quiet]) (.inr ⟨failure, rfl, notWrite⟩)
  | ok message => exact DriverSteps.records_sendOver

/-! ## Many dispatches -/

/-- A dispatch, and the handle that makes it. -/
structure DriverWrite (κ : Type) where
  handle : κ
  op : DispatchOp

/-- Dispatches through any number of handles; nothing is said about the brokers. -/
structure DriverTraffic (ι κ ε σ : Type) where
  drivers : κ → Driver
  encoder : JsonEventEncoder
  writes : ι → DriverWrite κ
  broker : ι → Semantics driverSignature σ
  environment : ε → σ → σ → Prop

/-- A broker that takes everything, and confirms nothing. -/
def driverReply : (call : DriverCall) → Unit → Option (Except String Unit) × Unit
  | .openChannel _ _, _ | .send _ _, _ => (some (.ok ()), ())
  | .confirm _, _ => (some (.error "channel closed"), ())

/-- Two payloads for one handle of RabbitMQ. -/
def twoPayloads : DriverTraffic (Fin 2) Unit Empty Unit where
  drivers := fun _ => .rabbitMq {}
  encoder := ⟨fun _ => .error "not an event", fun _ _ => .error "not an event"⟩
  writes := fun _ => ⟨(), .payload "mutation:orders" "\x7b\x7d"⟩
  broker := fun _ call before answer after => (answer, after) = driverReply call before
  environment := fun _ _ _ => False

namespace DriverTraffic

def flight (traffic : DriverTraffic ι κ ε σ) : Flight driverSignature ι κ ε σ WriteResult where
  place := fun thread => (traffic.writes thread).handle
  program := fun thread =>
    (traffic.drivers (traffic.writes thread).handle).dispatch traffic.encoder (traffic.writes thread).op
  outer := traffic.broker
  environment := traffic.environment

theorem keeping (traffic : DriverTraffic ι κ ε σ) : traffic.flight.Keeping DriverCall.connection :=
  fun _ => Driver.keeps_dispatch _ _ _

variable [DecidableEq ι] [DecidableEq κ] {traffic : DriverTraffic ι κ ε σ} {state : σ}
  {config : Flight.Configuration driverSignature ι κ ε σ WriteResult}

def twoPayloadsScheduler : Scheduler twoPayloads.flight.system Bool :=
  twoPayloads.flight.scheduler driverReply fun _ _ _ => rfl

end DriverTraffic

end SpectraGQL.Telemetry
