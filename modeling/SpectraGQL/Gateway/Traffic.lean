import SpectraGQL.Gateway.CommandProtocol
import SpectraGQL.Gateway.Ending
import SpectraGQL.Gateway.Replay
import SpectraGQL.Gateway.RouteOrder
import SpectraGQL.Protocol.JsonText

/-! # The traffic log

What the log is told of a request beside what the client is sent.  The last stage of a course
decides on both (`shown_rejectRequest` and the lemmas beside it), and the logging phase adds a
record of its own for every request that is neither a replay nor a command.
-/

namespace SpectraGQL.Gateway

open Interaction SpectraGQL.Core SpectraGQL.Http SpectraGQL.Protocol SpectraGQL.Interceptors
open SpectraGQL.Telemetry SpectraGQL.Idempotency

/-! ## What shows of a request -/

/-- What the client is sent, and what goes on record. -/
inductive Shown where
  /-- A head, and whether the client has taken it. -/
  | head (status : StatusCode) (taken : Bool)
  | body (bytes : Bytes)
  | logged (record : TrafficRecord)
  deriving DecidableEq

namespace Shown

def ofEvent : Event gatewaySignature → Option Shown
  | ⟨.writeResponseHeader header, taken⟩ => some (.head header.status taken)
  | ⟨.writeResponseBody bytes, _⟩ => some (.body bytes)
  | ⟨.recordTraffic record, _⟩ => some (.logged record)
  | _ => none

def record? : Shown → Option TrafficRecord
  | .logged record => some record
  | _ => none

end Shown

def shown (trace : List (Event gatewaySignature)) : List Shown := trace.filterMap Shown.ofEvent

def records (entries : List Shown) : List TrafficRecord := entries.filterMap Shown.record?

/-- A body that is a command receipt with this status. -/
def IsReceipt (status : String) (bytes : Bytes) : Prop :=
  ∃ fieldOrOp commandId hlc, bytes =
    asBytes (StrategyRouter.generateCommandReceipt fieldOrOp commandId hlc status).toString

/-- A record tells the status of the head that the client has, and that of the receipt that the
    gateway sends it; `own` is what shows of the request phase. -/
structure Tells (own whole : List Shown) (record : TrafficRecord) : Prop where
  statusCode : ∀ status, .head status true ∈ whole → record.statusCode = status.code
  receiptStatus : ∀ bytes status, .body bytes ∈ own → IsReceipt status bytes →
    record.receiptStatus = some status

/-- There is one record, and it tells how the request was answered. -/
def Truthful (own whole : List Shown) : Prop :=
  ∃ record, records whole = [record] ∧ Tells own whole record

@[simp] theorem records_append (left right : List Shown) :
    records (left ++ right) = records left ++ records right :=
  List.filterMap_append

@[simp] theorem records_head (status : StatusCode) (taken : Bool) (rest : List Shown) :
    records (.head status taken :: rest) = records rest := rfl

@[simp] theorem records_body (bytes : Bytes) (rest : List Shown) :
    records (.body bytes :: rest) = records rest := rfl

@[simp] theorem records_logged (record : TrafficRecord) (rest : List Shown) :
    records (.logged record :: rest) = record :: records rest := rfl

@[simp] theorem records_nil : records [] = [] := rfl

theorem truthful_of_single {own whole : List Shown} {record : TrafficRecord}
    (single : records whole = [record]) : Truthful own whole ↔ Tells own whole record := by
  constructor
  · intro ⟨other, same, tells⟩
    cases single.symm.trans same
    exact tells
  · exact fun tells => ⟨record, single, tells⟩

/-! ## Receipts -/

theorem receipt_eq (fieldOrOp : String) (commandId : RequestId) (hlc : HlcTimestamp) (status : String) :
    StrategyRouter.generateCommandReceipt fieldOrOp commandId hlc status =
      .object [("data", .object [(fieldOrOp, .object [("commandId", .string commandId),
        ("hlc", .string hlc.toCompactString), ("status", .string status)])])] := by
  simp only [StrategyRouter.generateCommandReceipt, Json.ofMembers, List.foldl_cons, List.foldl_nil,
    Json.insertMember, String.reduceLT, String.reduceEq, if_false]

/-- A receipt has one status. -/
theorem isReceipt_inj {left right : String} {bytes : Bytes} (isLeft : IsReceipt left bytes)
    (isRight : IsReceipt right bytes) : left = right := by
  obtain ⟨field, commandId, hlc, rfl⟩ := isLeft
  obtain ⟨otherField, otherId, otherHlc, same⟩ := isRight
  have texts := asBytes_inj.mp same
  rw [receipt_eq, receipt_eq] at texts
  have values := Json.toString_inj (by simp [Json.Printable, Json.PrintableMembers])
    (by simp [Json.Printable, Json.PrintableMembers]) texts
  simp only [Json.object.injEq, List.cons.injEq, Prod.mk.injEq, true_and, Json.string.injEq,
    and_true] at values
  exact values.2.2.2

theorem isReceipt_receiptBody (ctx : ProxyCtx) (route : SpectraRouteConfig) (info : RequestInfo)
    (dispatchOk : Bool) :
    IsReceipt (if dispatchOk then route.receiptStatus else "DISPATCH_FAILED")
      (asBytes (StrategyRouter.receiptBody ctx route info dispatchOk)) :=
  ⟨_, _, _, rfl⟩

/-- An error envelope is no receipt. -/
theorem not_isReceipt_errorResponse (error : GraphQLError) (status : String) :
    ¬ IsReceipt status (asBytes (errorResponse error)) := by
  intro ⟨field, commandId, hlc, same⟩
  have texts := asBytes_inj.mp same
  rw [receipt_eq] at texts
  unfold errorResponse Json.toString at texts
  have chars := String.ofList_inj.mp texts
  simp only [Json.write, List.cons.injEq, List.cons_append, List.append_assoc, true_and] at chars
  simpa using (Json.writeString_inj chars).1

/-! ## What the parts of a request show -/

section Parts

variable {α : Type} (environment : Environment) (world : World)

@[simp] theorem shown_append (trace : List (Event gatewaySignature)) (events : List (Event gatewaySignature)) :
    shown (trace ++ events) = shown trace ++ shown events :=
  List.filterMap_append

theorem shown_of_unshown {events : List (Event gatewaySignature)}
    (unshown : ∀ event ∈ events, Unshown event.call) : shown events = [] := by
  refine List.filterMap_eq_nil_iff.mpr fun event member => ?_
  obtain ⟨call, answer⟩ := event
  have isUnshown := unshown _ member
  cases call <;> first | rfl | exact absurd trivial isUnshown

theorem shown_run_of_unshown {program : GatewayProg α} (unshown : Prog.Only Unshown program) :
    shown (run environment program world).2.trace = shown world.trace := by
  refine Prog.Only.interp (fun world => shown world.trace) unshown (fun call before isUnshown => ?_) world
  have nothing : shown [⟨call, answerOf environment before call⟩] = [] := by
    refine shown_of_unshown fun event member => ?_
    rw [List.mem_singleton.mp member]
    exact isUnshown
  exact (shown_append ..).trans ((congrArg (_ ++ ·) nothing).trans (List.append_nil _))

/-- An answer of the gateway's own; a client that does not take the head gets no body. -/
def written (taken : Bool) (status : StatusCode) (body : String) : List Shown :=
  .head status taken :: if taken then [.body (asBytes body)] else []

theorem records_written (taken : Bool) (status : StatusCode) (body : String) :
    records (written taken status body) = [] := by
  cases taken <;> rfl

theorem shown_writeResponse (header : ResponseHeader) (body : String) :
    shown (run environment (writeResponse header body) world).2.trace =
      shown world.trace ++ written (environment.clientTakes world.trace.length) header.status body := by
  unfold writeResponse
  rw [run_bind]
  have taken : (run environment (writeResponseHeader header) world).1 =
      environment.clientTakes world.trace.length := rfl
  have head : shown (run environment (writeResponseHeader header) world).2.trace =
      shown world.trace ++ [.head header.status (environment.clientTakes world.trace.length)] :=
    shown_append ..
  rw [taken]
  generalize environment.clientTakes world.trace.length = isTaken at head ⊢
  cases isTaken with
  | false => exact head
  | true =>
    refine (shown_append ..).trans ?_
    rw [head, List.append_assoc]
    rfl

theorem shown_recordTrafficEvent (exchange : Exchange) (details : TrafficEventDetails) :
    shown (run environment (recordTrafficEvent exchange details) world).2.trace =
      shown world.trace ++ [.logged (trafficRecord exchange details)] :=
  shown_append ..

theorem unshown_releaseKey (ctx : ProxyCtx) : Prog.Only Unshown (releaseKey ctx) := by
  unfold releaseKey
  cases ctx.idempotencyKey with
  | none => exact Prog.Only.ret _
  | some key => exact Prog.Only.perform id

theorem unshown_settleKey (ctx : ProxyCtx) (dispatchOk : Bool) (body : String) :
    Prog.Only Unshown (StrategyRouter.settleKey ctx dispatchOk body) := by
  unfold StrategyRouter.settleKey
  split
  · exact Prog.Only.ret _
  · split
    · exact Prog.Only.perform id
    · exact Prog.Only.perform id

theorem unshown_forward (proxy : CompositeServiceProxy) (current : Exchange) (info : RequestInfo) :
    Prog.Only Unshown (forward proxy current info) := by
  unfold forward StrategyRouter.handleModeADispatchPolicy
  refine Prog.Only.bind ?_ fun _ => Prog.Only.ret _
  cases current.ctx.dispatchPolicy with
  | rawAudit => exact Prog.Only.bind (Prog.Only.perform id) fun _ => Prog.Only.ret _
  | responseOnly | responseWithFailure | none => exact Prog.Only.ret _

end Parts

/-! ## Last stages -/

section Stages

variable (environment : Environment) (world : World) (current : Exchange) (info : RequestInfo)

/-- Whether the client takes the whole of an answer written after so many calls. -/
def takesAnswer (calls : Nat) : Bool := environment.clientTakes calls && environment.clientTakes (calls + 1)

/-- An answer that goes on record once the client has taken the whole of it. -/
theorem shown_whenTaken {α : Type} (header : ResponseHeader) (body : String) {told : GatewayProg α}
    (untold : α) (tells : ∀ world, ∃ record,
      shown (run environment told world).2.trace = shown world.trace ++ [.logged record]) :
    ∃ logged : List TrafficRecord,
      logged.length = (takesAnswer environment world.trace.length).toNat ∧
      shown (run environment (writeResponse header body >>= fun taken =>
          if taken then told else pure untold) world).2.trace =
        shown world.trace ++ (written (environment.clientTakes world.trace.length) header.status body ++
          logged.map .logged) := by
  rw [run_bind, run_writeResponse_result]
  unfold takesAnswer
  split
  · rename_i takes
    obtain ⟨record, told⟩ := tells (run environment (writeResponse header body) world).2
    refine ⟨[record], by rw [takes]; rfl, ?_⟩
    rw [told, shown_writeResponse, List.append_assoc]
    rfl
  · rename_i refuses
    refine ⟨[], by rw [Bool.eq_false_iff.mpr refuses]; rfl, ?_⟩
    rw [run_pure, List.map_nil, List.append_nil]
    exact shown_writeResponse ..

theorem shown_rejectRequest (rejection : InterceptorRejection) :
    ∃ logged : List TrafficRecord,
      logged.length = (takesAnswer environment
        (world.trace.length + current.ctx.idempotencyKey.toList.length)).toNat ∧
      shown (run environment (rejectRequest current info rejection) world).2.trace =
        shown world.trace ++
          (written (environment.clientTakes (world.trace.length + current.ctx.idempotencyKey.toList.length))
              rejection.statusCode rejection.toGraphqlResponse ++ logged.map .logged) := by
  have released := shown_run_of_unshown environment world (unshown_releaseKey current.ctx)
  have length := @length_releaseKey environment world current.ctx
  unfold rejectRequest
  rw [run_bind, ← length, ← released]
  refine shown_whenTaken environment _ _ _ _ fun after => ?_
  have timed := shown_run_of_unshown environment after
    (Prog.Only.perform id : Prog.Only Unshown nowEpochMs)
  rw [run_bind, run_bind, run_bind, run_pure, shown_recordTrafficEvent]
  refine ⟨_, congrArg (· ++ _) (Eq.trans ?_ timed)⟩
  exact shown_run_of_unshown environment _
    (Prog.Only.perform id : Prog.Only Unshown (dispatchPayload _ _))

theorem shown_refuseDisabled (route : SpectraRouteConfig) :
    ∃ (body : String) (logged : List TrafficRecord),
      logged.length = (takesAnswer environment world.trace.length).toNat ∧
      shown (run environment (refuseDisabled current info route) world).2.trace =
        shown world.trace ++ (written (environment.clientTakes world.trace.length) .forbidden body ++
          logged.map .logged) :=
  ⟨_, shown_whenTaken environment world _ _ _ fun _ => ⟨_, shown_recordTrafficEvent ..⟩⟩

theorem shown_refusePayload :
    shown (run environment (refusePayload current) world).2.trace =
      shown world.trace ++ written (environment.clientTakes world.trace.length) .payloadTooLarge
        payloadTooLargeBody := by
  unfold refusePayload
  dsimp only
  rw [run_bind, run_writeResponse_result]
  split
  · cases current.ctx.idempotencyKey with
    | none => exact shown_writeResponse ..
    | some key =>
      refine (shown_run_of_unshown environment _ ?_).trans (shown_writeResponse ..)
      exact Prog.Only.bind (Prog.Only.perform id : Prog.Only Unshown (remove key)) fun _ => Prog.Only.ret _
  · exact shown_writeResponse ..

section Taken

variable {environment world current} {key : String} {shownKey : Option String} {mode : String}
  {operationName : Option String} {found : KeyState}

/-- A claim of a taken key, once the engine has told so. -/
theorem run_claim_taken (taken : world.engine key = some found) :
    ∃ trace, shown trace = shown world.trace ∧ trace.length = world.trace.length + 1 ∧
      run environment (claim current key shownKey mode operationName) world =
        run environment (IdempotencyFilter.answerClaim current.ctx key shownKey found.outcome >>=
          afterClaim current mode operationName) ⟨world.engine, trace⟩ := by
  refine ⟨world.trace ++ [⟨.checkOrInsert key current.ctx.hlc, found.outcome⟩],
    (shown_append ..).trans (List.append_nil _), List.length_append, ?_⟩
  unfold claim IdempotencyFilter.claimKey
  rw [Prog.bind_assoc, run_bind, run_checkOrInsert, handle_checkOrInsert_of_taken taken]

theorem shown_claim_of_inProgress {holder : HlcTimestamp}
    (taken : world.engine key = some (.inProgress holder)) :
    ∃ body, shown (run environment (claim current key shownKey mode operationName) world).2.trace =
      shown world.trace ++ written (environment.clientTakes (world.trace.length + 1)) .conflict body := by
  obtain ⟨trace, same, length, ran⟩ := @run_claim_taken environment world current _ shownKey mode
    operationName _ taken
  rw [ran, ← same, ← length, run_bind, answerClaim_result]
  unfold KeyState.outcome IdempotencyFilter.answerClaim
  dsimp only
  rw [run_bind]
  exact ⟨_, shown_writeResponse environment ⟨world.engine, trace⟩ _ _⟩

theorem shown_claim_of_completed {holder : HlcTimestamp} {statusCode : UInt16}
    {headers : List (String × String)} {body : String} {status : StatusCode}
    (taken : world.engine key = some (.completed holder statusCode headers body))
    (valid : StatusCode.fromU16 statusCode = some status) :
    ∃ record, record.statusCode = 200 ∧ record.receiptStatus = some "REPLAY" ∧
      shown (run environment (claim current key shownKey mode operationName) world).2.trace =
        shown world.trace ++
          (written (environment.clientTakes (world.trace.length + 1)) status body ++ [.logged record]) := by
  obtain ⟨trace, same, length, ran⟩ := @run_claim_taken environment world current _ shownKey mode
    operationName _ taken
  rw [ran, ← same, ← length, run_bind, answerClaim_result]
  simp only [valid, Option.isSome_some, if_true]
  unfold afterClaim
  rw [run_bind, run_pure, shown_recordTrafficEvent]
  refine ⟨_, ?_, ?_, (congrArg (· ++ _) ?_).trans (List.append_assoc ..)⟩
  · rfl
  · rfl
  unfold KeyState.outcome IdempotencyFilter.answerClaim IdempotencyFilter.writeReplayResponse
  simp only [valid]
  rw [run_bind, run_bind]
  refine (shown_writeResponse environment ⟨world.engine, trace⟩ _ _).trans ?_
  rw [status_replayResponseHeader]

theorem shown_claim_of_invalid {holder : HlcTimestamp} {statusCode : UInt16}
    {headers : List (String × String)} {body : String}
    (taken : world.engine key = some (.completed holder statusCode headers body))
    (invalid : StatusCode.fromU16 statusCode = none) :
    shown (run environment (claim current key shownKey mode operationName) world).2.trace =
      shown world.trace := by
  obtain ⟨trace, same, length, ran⟩ := @run_claim_taken environment world current _ shownKey mode
    operationName _ taken
  rw [ran, ← same, run_bind, answerClaim_result]
  unfold KeyState.outcome IdempotencyFilter.answerClaim IdempotencyFilter.writeReplayResponse
  simp only [invalid, Option.isSome_none, Bool.false_eq_true, if_false]
  rfl

end Taken

theorem shown_handleModeBEdge (proxy : CompositeServiceProxy) (route : SpectraRouteConfig) :
    ∃ taken, shown (run environment (StrategyRouter.handleModeBEdge proxy current route info) world).2.trace =
      shown world.trace ++ written taken .ok
        (StrategyRouter.receiptBody current.ctx route info (environment.brokerTakes world.trace.length)) := by
  have sent : shown (run environment (dispatchRequestInfo (proxy.sanitize info)) world).2.trace =
      shown world.trace := shown_run_of_unshown environment world (Prog.Only.perform id)
  have accepts : (run environment (dispatchRequestInfo (proxy.sanitize info)) world).1 =
      environment.brokerTakes world.trace.length := rfl
  unfold StrategyRouter.handleModeBEdge
  rw [run_bind, run_bind, run_bind, run_pure, shown_writeResponse, accepts,
    shown_run_of_unshown environment _ (unshown_settleKey ..), sent]
  refine ⟨_, congrArg (_ ++ ·) (congrArg (written _ · _) ?_)⟩
  unfold StrategyRouter.receiptHeader
  cases environment.brokerTakes world.trace.length <;> rfl

theorem shown_commitCommand (proxy : CompositeServiceProxy) (route : SpectraRouteConfig) :
    ∃ taken record, record.statusCode = 200 ∧ record.receiptStatus = some route.receiptStatus ∧
      shown (run environment (commitCommand proxy current info route) world).2.trace =
        shown world.trace ++
          (written taken .ok (StrategyRouter.receiptBody current.ctx route info
            (environment.brokerTakes world.trace.length)) ++ [.logged record]) := by
  obtain ⟨taken, answered⟩ := shown_handleModeBEdge environment world current info proxy route
  unfold commitCommand
  rw [run_bind, run_bind, run_pure, shown_recordTrafficEvent, answered, List.append_assoc]
  exact ⟨taken, _, rfl, rfl, rfl⟩

end Stages

/-! ## Going upstream -/

section Upstream

variable (proxy : CompositeServiceProxy) (dynamic : DynamicGatewayState) (environment : Environment)

theorem parts_responseBodyFilter (ctx : ProxyCtx) (elapsedMs : Nat) (body : Option Bytes) (last : Bool) :
    (responseBodyFilter proxy dynamic ctx elapsedMs body last).1.responseParts = ctx.responseParts := by
  unfold responseBodyFilter
  split
  · unfold interceptBody
    dsimp only
    split
    · unfold noteResponseBody noteVerdict
      split <;> rfl
    · rfl
  · have previewed : ∀ (captured : Bool) (seen : ProxyCtx) (text : Option String),
        (if captured then { seen with errorPreview := text } else seen).responseParts =
          seen.responseParts := by
      intro captured seen text
      cases captured <;> rfl
    unfold streamBody
    cases last with
    | true => exact (previewed _ _ _).trans (by cases body <;> rfl)
    | false => cases body <;> rfl

/-- The chunks of a body neither write a head nor go on record, and the head is kept. -/
theorem shown_streamChunks (elapsedMs : Nat) (broken : Option PingoraError) (ctx : ProxyCtx)
    (chunks : List (Option Bytes)) (world : World) :
    ∃ bodies : List Bytes,
      shown (run environment (streamChunks proxy dynamic elapsedMs broken ctx chunks) world).2.trace =
        shown world.trace ++ bodies.map .body ∧
      (run environment (streamChunks proxy dynamic elapsedMs broken ctx chunks) world).1.2.responseParts =
        ctx.responseParts := by
  induction chunks generalizing ctx world with
  | nil => exact ⟨[], (List.append_nil _).symm, rfl⟩
  | cons chunk rest inductionHypothesis =>
    have kept := parts_responseBodyFilter proxy dynamic ctx elapsedMs chunk (rest.isEmpty && broken.isNone)
    unfold streamChunks
    dsimp only
    split
    · rw [← kept]
      exact inductionHypothesis ..
    · rename_i bytes sent
      have wrote : shown (run environment (writeResponseBody bytes) world).2.trace =
          shown world.trace ++ [.body bytes] := shown_append ..
      rw [run_bind]
      split
      -- the client takes the chunk, and the rest follows
      · obtain ⟨bodies, more, parts⟩ := inductionHypothesis
          (responseBodyFilter proxy dynamic ctx elapsedMs chunk (rest.isEmpty && broken.isNone)).1
          (run environment (writeResponseBody bytes) world).2
        refine ⟨bytes :: bodies, ?_, parts.trans kept⟩
        rw [more, wrote, List.append_assoc]
        rfl
      · exact ⟨[bytes], wrote, kept⟩

/-- What a forwarded request shows: the head that is kept of the response, if there is one, and
    the chunks of its body. -/
theorem shown_proxyUpstream (exchange : Exchange) (upstream : Upstream) (elapsedMs : Nat) (world : World) :
    ∃ added : List Shown, records added = [] ∧
      shown (run environment (proxyUpstream proxy dynamic exchange upstream elapsedMs) world).2.trace =
        shown world.trace ++ added ∧
      ∀ status taken, .head status taken ∈ added →
        (run environment (proxyUpstream proxy dynamic exchange upstream elapsedMs) world).1.2.ctx.responseParts.map
          ResponseHeader.status = some status := by
  unfold proxyUpstream
  split
  · exact ⟨[], rfl, (List.append_nil _).symm, by simp⟩
  dsimp only
  split
  · exact ⟨[], rfl, (List.append_nil _).symm, by simp⟩
  rename_i head chunks broken
  generalize exchange.session.chunks.foldl requestBodyFilter exchange.ctx = ctx
  -- the head is kept before it is written, so it is there whether the client takes it or not
  have parts : (responseFilter dynamic ctx head).1.responseParts.map ResponseHeader.status =
      some head.status := by
    rw [responseParts_responseFilter]
    rfl
  have wrote : shown (run environment (writeResponseHeader (responseFilter dynamic ctx head).2) world).2.trace =
      shown world.trace ++ [.head head.status (environment.clientTakes world.trace.length)] := by
    rw [← status_responseFilter dynamic ctx head]
    exact shown_append ..
  rw [run_bind]
  split
  · obtain ⟨bodies, more, kept⟩ := shown_streamChunks proxy dynamic environment elapsedMs broken
      (responseFilter dynamic ctx head).1 chunks
      (run environment (writeResponseHeader (responseFilter dynamic ctx head).2) world).2
    have noRecords : records (bodies.map .body) = [] :=
      List.filterMap_eq_nil_iff.mpr (by simp [Shown.record?])
    refine ⟨.head head.status (environment.clientTakes world.trace.length) :: bodies.map .body,
      noRecords, ?_, ?_⟩
    · rw [run_bind, run_pure, more, wrote, List.append_assoc]
      rfl
    · intro status taken member
      have same : status = head.status ∧ taken = environment.clientTakes world.trace.length := by
        simpa using member
      rw [run_bind, run_pure, same.1, ← parts]
      exact congrArg (Option.map ResponseHeader.status) kept
  · refine ⟨[.head head.status (environment.clientTakes world.trace.length)], rfl, wrote, ?_⟩
    intro status taken member
    have same : status = head.status ∧ taken = environment.clientTakes world.trace.length := by
      simpa using member
    rw [same.1]
    exact parts

end Upstream

/-! ## Logging -/

/-- A path under which the logging phase takes a request for a GraphQL request. -/
def isGraphqlPath (path : String) : Bool := startsWith path "/gql" || startsWith path "/graphql"

section Logging

variable (proxy : CompositeServiceProxy) (environment : Environment) (world : World)

theorem unshown_dispatchLogging (exchange : Exchange) (error : Option PingoraError) :
    Prog.Only Unshown (dispatchLogging proxy exchange error) := by
  have completes : ∀ status headers body,
      Prog.Only Unshown (completeKey exchange.ctx status headers body) := by
    intro status headers body
    unfold completeKey
    cases exchange.ctx.idempotencyKey with
    | none => exact Prog.Only.ret _
    | some key => exact Prog.Only.perform id
  exact only_dispatchLogging fun topic info =>
    only_concludeRequest (fun _ _ => id) (unshown_releaseKey _) completes topic info

/-- A request that has not gone on record before does so when it is logged. -/
theorem shown_logging {exchange : Exchange} (served : exchange.ctx.service.isSome)
    (notModeB : exchange.ctx.isModeBTerminated = false) (notReplay : exchange.ctx.isReplay = false)
    (graphql : isGraphqlPath exchange.session.reqHeader.uri.path = true) (error : Option PingoraError) :
    ∃ record, record.statusCode = (exchange.ctx.responseParts.map fun parts => parts.status.code).getD
        (if error.isSome then 502 else 200) ∧ record.receiptStatus = none ∧
      shown (run environment (logging proxy exchange error) world).2.trace =
        shown world.trace ++ [.logged record] := by
  obtain ⟨service, isService⟩ := Option.isSome_iff_exists.mp served
  have recorded : recordLogged exchange service error = recordProxied exchange service error := by
    unfold recordLogged
    rw [notModeB, notReplay]
    exact if_pos graphql
  unfold logging
  rw [isService]
  dsimp only
  rw [recorded, run_bind, shown_run_of_unshown environment _ (unshown_dispatchLogging ..)]
  unfold recordProxied
  dsimp only
  rw [shown_recordTrafficEvent]
  exact ⟨_, rfl, rfl, rfl⟩

/-- Replays and commands are on record already. -/
theorem shown_logging_of_passed {exchange : Exchange}
    (passed : exchange.ctx.isModeBTerminated = true ∨ exchange.ctx.isReplay = true ∨
      exchange.ctx.service = none) (error : Option PingoraError) :
    shown (run environment (logging proxy exchange error) world).2.trace = shown world.trace := by
  unfold logging
  cases isService : exchange.ctx.service with
  | none => rfl
  | some service =>
    have skipped : recordLogged exchange service error = .ret () := by
      unfold recordLogged
      rcases passed with modeB | replay | none
      · simp [modeB]
      · simp [replay]
      · cases isService.symm.trans none
    dsimp only
    rw [skipped, run_bind]
    exact shown_run_of_unshown environment _ (unshown_dispatchLogging ..)

end Logging

/-! ## The record and the answer -/

/-- The records under which a replay is told truly. -/
def KeyToldTruly : KeyState → Prop
  | .inProgress _ => False
  | .completed _ statusCode _ body =>
    statusCode = 200 ∧ ∀ status, IsReceipt status (asBytes body) → status = "REPLAY"

/-- The requests of which the log tells the truth. -/
def ToldTruly (proxy : CompositeServiceProxy) (dynamic : DynamicGatewayState) (environment : Environment)
    (exchange : Exchange) : Course → Prop
  | .undecoded | .forwarded _ _ => True
  | .keyTaken found | .fingerprintTaken _ found => KeyToldTruly found
  | .rejected _ rejection =>
    rejection.statusCode.code = 200 ∧ takesRejection environment exchange = false
  | .command info route =>
    environment.brokerTakes (callsBeforeCommand proxy dynamic exchange info) = true ∨
      route.receiptStatus = "DISPATCH_FAILED"
  | .unrouted | .edge | .unread | .disabled _ _ => False

section Truth

variable {taken : Bool} {status : StatusCode} {body : String}

theorem taken_of_answered {added : List Shown} (noHead : ∀ status, .head status true ∉ added)
    (answered : ∃ status', .head status' true ∈ written taken status body ++ added) :
    taken = true ∧ ∀ status', .head status' true ∈ written taken status body ++ added → status' = status := by
  obtain ⟨status', member⟩ := answered
  cases taken with
  | false => simp [written, noHead] at member
  | true => simp [written, noHead]

theorem noHead_logged (logged : List TrafficRecord) (status : StatusCode) :
    Shown.head status true ∉ logged.map Shown.logged := by
  simp

/-- An answer that is on record already, and is not logged again. -/
theorem truthful_recorded_iff {record : TrafficRecord}
    (answered : ∃ status', .head status' true ∈ written taken status body ++ [.logged record]) :
    Truthful (written taken status body ++ [.logged record]) (written taken status body ++ [.logged record]) ↔
      record.statusCode = status.code ∧
        ∀ receipt, IsReceipt receipt (asBytes body) → record.receiptStatus = some receipt := by
  obtain ⟨rfl, -⟩ := taken_of_answered (noHead_logged [record]) answered
  have single : records (written true status body ++ [.logged record]) = [record] := by
    rw [records_append, records_written]
    rfl
  rw [truthful_of_single single]
  constructor
  · intro tells
    exact ⟨tells.statusCode status (by simp [written]),
      fun receipt => tells.receiptStatus _ receipt (by simp [written])⟩
  · intro ⟨sameStatus, sameReceipt⟩
    refine ⟨fun status' member => ?_, fun bytes receipt member isReceipt => ?_⟩
    · have same : status' = status := by simpa [written] using member
      rw [same]
      exact sameStatus
    · have same : bytes = asBytes body := by simpa [written] using member
      exact sameReceipt receipt (same ▸ isReceipt)

/-- An answer that is logged after the fact, whether or not it is on record already. -/
theorem truthful_logged_iff {logged : List TrafficRecord} {record : TrafficRecord}
    (isOk : record.statusCode = 200) (noReceipt : record.receiptStatus = none)
    (answered : ∃ status', .head status' true ∈
      written taken status body ++ (logged.map .logged ++ [.logged record])) :
    Truthful (written taken status body ++ logged.map .logged)
        (written taken status body ++ (logged.map .logged ++ [.logged record])) ↔
      logged = [] ∧ status.code = 200 ∧ ∀ receipt, ¬ IsReceipt receipt (asBytes body) := by
  obtain ⟨rfl, -⟩ := taken_of_answered (by simp) answered
  -- the records are those logged on the way, and the last one
  have all : records (written true status body ++ (logged.map .logged ++ [.logged record])) =
      logged ++ [record] := by
    have mapped : records (logged.map .logged) = logged := by
      unfold records
      rw [List.filterMap_map]
      exact List.filterMap_some
    rw [records_append, records_append, records_written, mapped]
    rfl
  constructor
  · intro ⟨told, single, tells⟩
    have empty : logged = [] := by
      have length := congrArg List.length (all.symm.trans single)
      simpa using length
    subst empty
    obtain rfl : record = told := by simpa using all.symm.trans single
    refine ⟨rfl, ?_, fun receipt isReceipt => ?_⟩
    · rw [← isOk]
      exact (tells.statusCode status (by simp [written])).symm
    · have told := tells.receiptStatus _ receipt (by simp [written]) isReceipt
      cases noReceipt.symm.trans told
  · intro ⟨empty, sameStatus, plain⟩
    subst empty
    refine ⟨record, all, fun status' member => ?_, fun bytes receipt member isReceipt => ?_⟩
    · have same : status' = status := by simpa [written] using member
      rw [same, isOk, sameStatus]
    · have same : bytes = asBytes body := by simpa [written] using member
      exact absurd (same ▸ isReceipt) (plain receipt)

end Truth

section Whole

variable {proxy : CompositeServiceProxy} {dynamic : DynamicGatewayState} {environment : Environment}
  {arrival : Arrival} {exchange current : Exchange} {world : World} {outcome : Outcome}
  {course : Course} {program : GatewayProg Outcome}
  (served : exchange.ctx.service.isSome)
  (graphql : isGraphqlPath exchange.session.reqHeader.uri.path = true)

/-- All that shows of a request, from where its request phase has ended. -/
def finallyShown (proxy : CompositeServiceProxy) (dynamic : DynamicGatewayState) (environment : Environment)
    (arrival : Arrival) (filtered : Outcome × World) : List Shown :=
  shown (run environment (afterRequestFilter proxy dynamic arrival filtered.1) filtered.2).2.trace

include served graphql

theorem Pending.shown_logging (pending : Pending exchange current) (error : Option PingoraError) :
    ∃ record, record.statusCode = (if error.isSome then 502 else 200) ∧ record.receiptStatus = none ∧
      shown (run environment (logging proxy current error) world).2.trace =
        shown world.trace ++ [.logged record] := by
  have isServed : current.ctx.service.isSome := by
    rw [pending.service]
    exact served
  have isGraphql : isGraphqlPath current.session.reqHeader.uri.path = true := by
    rw [pending.uri]
    exact graphql
  have told := Gateway.shown_logging proxy environment world isServed pending.notModeB pending.notReplay
    isGraphql error
  rw [pending.noParts] at told
  exact told

/-- The gateway has answered the request, and logs it. -/
theorem finallyShown_of_answered (pending : Pending exchange current) :
    ∃ record, record.statusCode = 200 ∧ record.receiptStatus = none ∧
      finallyShown proxy dynamic environment arrival (⟨.ok true, current⟩, world) =
        shown world.trace ++ [.logged record] :=
  pending.shown_logging served graphql none

theorem finallyShown_of_failed (pending : Pending exchange current) (error : PingoraError) :
    ∃ record, finallyShown proxy dynamic environment arrival (⟨.error error, current⟩, world) =
      shown world.trace ++ [.logged record] := by
  obtain ⟨record, -, -, told⟩ := pending.shown_logging served graphql (some error)
  exact ⟨record, told⟩

/-- The answer to a forwarded request is told truly. -/
theorem truthful_of_forwarded (pending : Pending exchange current) (nothing : shown world.trace = []) :
    Truthful (shown world.trace)
      (finallyShown proxy dynamic environment arrival (⟨.ok false, current⟩, world)) := by
  obtain ⟨added, noRecords, shows, heads⟩ := shown_proxyUpstream proxy dynamic environment current
    arrival.upstream arrival.elapsedMs world
  -- forwarding changes neither the session nor the core of the context
  have core : (run environment (proxyUpstream proxy dynamic current arrival.upstream arrival.elapsedMs)
        world).1.2.session = current.session ∧
      (run environment (proxyUpstream proxy dynamic current arrival.upstream arrival.elapsedMs)
        world).1.2.ctx.core = current.ctx.core :=
    (core_proxyUpstream proxy dynamic current arrival.upstream arrival.elapsedMs).interp
      (handle environment) world
  unfold finallyShown afterRequestFilter
  dsimp only
  rw [run_bind]
  generalize run environment (proxyUpstream proxy dynamic current arrival.upstream arrival.elapsedMs) world =
    forwarded at shows heads core ⊢
  have isServed : forwarded.1.2.ctx.service.isSome := by
    rw [field_of_core ProxyCtx.service (fun _ => rfl) core.2, pending.service]
    exact served
  have isGraphql : isGraphqlPath forwarded.1.2.session.reqHeader.uri.path = true := by
    rw [core.1, pending.uri]
    exact graphql
  obtain ⟨record, statusCode, -, logged⟩ := Gateway.shown_logging proxy environment forwarded.2 isServed
    ((field_of_core ProxyCtx.isModeBTerminated (fun _ => rfl) core.2).trans pending.notModeB)
    ((field_of_core ProxyCtx.isReplay (fun _ => rfl) core.2).trans pending.notReplay) isGraphql forwarded.1.1
  rw [logged, shows, nothing, List.nil_append]
  refine ⟨record, ?_, fun status member => ?_, fun _ _ member => absurd member List.not_mem_nil⟩
  · rw [records_append, noRecords]
    rfl
  · have isHead : .head status true ∈ added := by simpa using member
    obtain ⟨parts, isParts, same⟩ := Option.map_eq_some_iff.mp (heads status true isHead)
    rw [statusCode, isParts, ← same]
    rfl

/-- The gateway has answered the request, and the answer is logged afterwards. -/
theorem truthful_of_answered (pending : Pending exchange current) {taken : Bool} {status : StatusCode}
    {body : String} {logged : List TrafficRecord}
    (shows : shown world.trace = written taken status body ++ logged.map .logged)
    (answered : ∃ status, .head status true ∈
      finallyShown proxy dynamic environment arrival (⟨.ok true, current⟩, world)) :
    Truthful (shown world.trace)
        (finallyShown proxy dynamic environment arrival (⟨.ok true, current⟩, world)) ↔
      logged = [] ∧ status.code = 200 ∧ ∀ receipt, ¬ IsReceipt receipt (asBytes body) := by
  obtain ⟨record, isOk, noReceipt, whole⟩ := @finallyShown_of_answered proxy dynamic environment arrival
    exchange current world served graphql pending
  rw [whole, shows, List.append_assoc] at answered
  rw [whole, shows, List.append_assoc]
  exact truthful_logged_iff isOk noReceipt answered

omit served graphql in
/-- The gateway has answered the request and put it on record. -/
theorem truthful_of_recorded
    (passed : current.ctx.isModeBTerminated = true ∨ current.ctx.isReplay = true) {taken : Bool}
    {status : StatusCode} {body : String} {record : TrafficRecord}
    (shows : shown world.trace = written taken status body ++ [.logged record])
    (answered : ∃ status, .head status true ∈
      finallyShown proxy dynamic environment arrival (⟨.ok true, current⟩, world)) :
    Truthful (shown world.trace)
        (finallyShown proxy dynamic environment arrival (⟨.ok true, current⟩, world)) ↔
      record.statusCode = status.code ∧
        ∀ receipt, IsReceipt receipt (asBytes body) → record.receiptStatus = some receipt := by
  have whole : finallyShown proxy dynamic environment arrival (⟨.ok true, current⟩, world) =
      shown world.trace :=
    shown_logging_of_passed proxy environment world (passed.imp_right .inl) none
  rw [whole, shows] at answered
  rw [whole, shows]
  exact truthful_recorded_iff answered

/-- A request whose key is taken. -/
theorem truthful_of_taken (pending : Pending exchange current) {key : String} {shownKey : Option String}
    {mode : String} {operationName : Option String} {found : KeyState}
    {rest : Exchange → GatewayProg Outcome} (taken : world.engine key = some found)
    (nothing : shown world.trace = []) {outcome : Outcome} {after : World}
    (ran : run environment (Stage.andThen (claim current key shownKey mode operationName) rest) world =
      (outcome, after))
    (answered : ∃ status, .head status true ∈
      finallyShown proxy dynamic environment arrival (outcome, after)) :
    Truthful (shown after.trace) (finallyShown proxy dynamic environment arrival (outcome, after)) ↔
      KeyToldTruly found := by
  have ended := @run_andThen_of_done environment world _ _ rest _
    (@run_claim_of_taken environment world current key shownKey mode operationName found taken)
  obtain ⟨rfl, rfl⟩ := Prod.mk.inj (ended.symm.trans ran)
  cases found with
  | inProgress holder =>
    obtain ⟨body, shows⟩ := @shown_claim_of_inProgress environment world current key shownKey mode
      operationName holder taken
    rw [nothing, List.nil_append] at shows
    have conflict := @truthful_of_answered proxy dynamic environment arrival exchange current _ served
      graphql pending _ _ body [] (shows.trans (List.append_nil _).symm) answered
    exact conflict.trans (iff_of_false (fun told => absurd told.2.1 (by decide)) id)
  | completed holder statusCode headers body =>
    unfold endOfTaken at answered ⊢
    dsimp only at answered ⊢
    -- a recorded status that is no status is answered like a failure of the gateway
    cases valid : StatusCode.fromU16 statusCode with
    | none =>
      have shows := @shown_claim_of_invalid environment world current key shownKey mode operationName holder
        statusCode headers body taken valid
      obtain ⟨record, logged⟩ := @finallyShown_of_failed proxy dynamic environment arrival exchange current
        (run environment (claim current key shownKey mode operationName) world).2 served graphql pending
        IdempotencyFilter.invalidStatus
      obtain ⟨status, member⟩ := answered
      simp [valid, logged, shows, nothing] at member
    | some status =>
      obtain ⟨record, isOk, replayed, shows⟩ := @shown_claim_of_completed environment world current key
        shownKey mode operationName holder statusCode headers body status taken valid
      rw [nothing, List.nil_append] at shows
      simp only [valid, Option.isSome_some, if_true] at answered ⊢
      rw [truthful_of_recorded (.inr rfl) shows answered, isOk, replayed, code_of_fromU16 valid]
      unfold KeyToldTruly
      simp only [Option.some.injEq, eq_comm]

/-- The last stage of a course decides whether the log tells the truth. -/
theorem truthful_of_lastStage (last : LastStage proxy dynamic exchange course program world)
    (nothing : shown world.trace = []) {outcome : Outcome} {after : World}
    (ran : run environment program world = (outcome, after))
    (answered : ∃ status, .head status true ∈
      finallyShown proxy dynamic environment arrival (outcome, after)) :
    Truthful (shown after.trace) (finallyShown proxy dynamic environment arrival (outcome, after)) ↔
      ToldTruly proxy dynamic environment exchange course := by
  have isOutcome : ∀ {post : Outcome → Prop}, program.Returns post → post outcome := by
    intro post returns
    have holds : post (run environment program world).1 := returns.interp (handle environment) world
    rw [ran] at holds
    exact holds
  have isAfter : (run environment program world).2 = after := congrArg Prod.snd ran
  cases last with
  | undecoded current _ pending =>
    obtain ⟨rfl, rfl⟩ := Prod.mk.inj ran
    exact iff_of_true (truthful_of_forwarded served graphql pending nothing) trivial
  | forwarded info policy current _ pending =>
    have silent := shown_run_of_unshown environment world (unshown_forward proxy current info)
    obtain rfl := isOutcome (forward_returns proxy current info)
    rw [isAfter, nothing] at silent
    exact iff_of_true (truthful_of_forwarded served graphql pending silent) trivial
  | unread error current _ pending =>
    obtain ⟨rfl, rfl⟩ := Prod.mk.inj ran
    obtain ⟨record, told⟩ := @finallyShown_of_failed proxy dynamic environment arrival exchange _ world
      served graphql pending error
    -- the client is gone before anything was written
    obtain ⟨status, member⟩ := answered
    rw [told, nothing] at member
    simp at member
  | tooLarge current _ pending =>
    have shows := shown_refusePayload environment world current
    rw [isAfter, nothing, List.nil_append] at shows
    obtain ⟨key, rfl⟩ := isOutcome (refusePayload_returns current)
    rw [@truthful_of_answered proxy dynamic environment arrival exchange _ _ served graphql (pending.setKey key)
      _ _ _ [] (shows.trans (List.append_nil _).symm) answered]
    exact iff_of_false (fun told => absurd told.2.1 (by decide)) id
  | keyTaken found current key shownKey mode operationName rest _ pending taken =>
    exact truthful_of_taken served graphql pending taken nothing ran answered
  | fingerprintTaken info found current key shownKey mode operationName rest _ pending taken =>
    exact truthful_of_taken served graphql pending taken nothing ran answered
  | rejected info rejection current _ pending calls =>
    obtain ⟨logged, counted, shows⟩ := shown_rejectRequest environment world current info rejection
    rw [isAfter, nothing, List.nil_append, calls] at shows
    rw [calls] at counted
    obtain rfl := isOutcome (rejectRequest_returns current info rejection)
    rw [truthful_of_answered served graphql (pending.setKey none) shows answered,
      ← List.length_eq_zero_iff, counted]
    -- an error is no receipt, so all that can be wrong is that nobody took it
    have untaken : (takesAnswer environment (1 + 2 * (explicitKey exchange.session).toList.length)).toNat = 0 ↔
        takesRejection environment exchange = false := Bool.toNat_eq_zero
    have plain : ∀ receipt, ¬ IsReceipt receipt (asBytes rejection.toGraphqlResponse) := fun receipt =>
      not_isReceipt_errorResponse _ receipt
    rw [untaken]
    exact ⟨fun told => ⟨told.2.1, told.1⟩, fun told => ⟨told.2, told.1, plain⟩⟩
  | disabled info route current _ pending =>
    obtain ⟨body, logged, -, shows⟩ := shown_refuseDisabled environment world current info route
    rw [isAfter, nothing, List.nil_append] at shows
    obtain rfl : outcome = ⟨.ok true, current⟩ := isOutcome (refuseDisabled_returns current info route)
    rw [truthful_of_answered served graphql pending shows answered]
    exact iff_of_false (fun told => absurd told.2.1 (by decide)) id
  | command info route current _ calls =>
    obtain ⟨taken, record, isOk, receipt, shows⟩ := shown_commitCommand environment world current info proxy route
    rw [isAfter, nothing, List.nil_append, calls] at shows
    have terminates : (commitCommand proxy current info route).Returns fun outcome =>
        ∃ after, outcome = ⟨.ok true, after⟩ ∧ after.ctx.isModeBTerminated = true :=
      (handleModeBEdge_returns proxy current route info).bind fun after isAfter =>
        (Prog.returns_true _).bind fun _ _ => Prog.Returns.ret ⟨after, rfl, by rw [isAfter]⟩
    obtain ⟨ended, rfl, terminated⟩ := isOutcome terminates
    have isReceipt := isReceipt_receiptBody current.ctx route info
      (environment.brokerTakes (callsBeforeCommand proxy dynamic exchange info))
    rw [truthful_of_recorded (.inl terminated) shows answered, isOk, receipt]
    unfold ToldTruly
    dsimp only
    generalize environment.brokerTakes (callsBeforeCommand proxy dynamic exchange info) = dispatchOk
      at isReceipt ⊢
    cases dispatchOk with
    | true =>
      refine iff_of_true ⟨rfl, fun other isOther => ?_⟩ (.inl rfl)
      exact congrArg some (isReceipt_inj isReceipt isOther)
    | false =>
      constructor
      · intro told
        exact .inr (Option.some.inj (told.2 _ isReceipt))
      · intro failed
        refine ⟨rfl, fun other isOther => congrArg some ?_⟩
        rw [failed.resolve_left Bool.false_ne_true]
        exact isReceipt_inj isReceipt isOther

end Whole

/-! ## Requests that the gateway does not look at -/

section Silence

variable {environment : Environment} {world : World}

/-- A program that writes nothing leaves no head in the trace. -/
theorem head_of_silent {α : Type} {program : GatewayProg α} (silent : Prog.Only Silent program)
    {status : StatusCode} {taken : Bool}
    (member : .head status taken ∈ shown (run environment program world).2.trace) :
    .head status taken ∈ shown world.trace := by
  obtain ⟨event, inTrace, isHead⟩ := List.mem_filterMap.mp member
  cases trace_of_only silent event inTrace with
  | inl earlier => exact List.mem_filterMap.mpr ⟨event, earlier, isHead⟩
  | inr isSilent =>
    obtain ⟨call, answer⟩ := event
    cases call with
    | writeResponseHeader header => cases isSilent
    | _ => cases isHead

/-- The edge writes nothing to a request on a GraphQL path itself. -/
theorem silent_answerAtEdge {proxy : CompositeServiceProxy} {exchange : Exchange}
    (graphql : isGraphqlPath exchange.session.reqHeader.uri.path = true) :
    Prog.Only Silent (answerAtEdge proxy exchange) := by
  -- a GraphQL path is none of the paths of the edge
  have other : ∀ path, isGraphqlPath path = false → exchange.session.reqHeader.uri.path ≠ path := by
    intro path notGraphql same
    rw [same, notGraphql] at graphql
    cases graphql
  have notIcon : FaviconFilter.isFaviconRequest exchange.session.reqHeader.uri.path = false := by
    simp only [FaviconFilter.isFaviconRequest, Bool.or_eq_false_iff, beq_eq_false_iff_ne]
    refine ⟨⟨⟨⟨⟨?_, ?_⟩, ?_⟩, ?_⟩, ?_⟩, ?_⟩ <;> exact other _ (by decide)
  have health : HealthFilter.handle exchange.session.reqHeader.uri.path = .ret false := by
    unfold HealthFilter.handle
    rw [if_neg (other "/healthz" (by decide)), if_neg (other "/livez" (by decide))]
    rfl
  have favicon : FaviconFilter.handle proxy.faviconSvg exchange.session.reqHeader.uri.path = .ret false := by
    unfold FaviconFilter.handle
    rw [notIcon]
    rfl
  unfold answerAtEdge
  dsimp only
  rw [health, favicon, Prog.ret_bind, if_neg Bool.false_ne_true, Prog.ret_bind, if_neg Bool.false_ne_true]
  refine Prog.Only.bind (silent_admin ..) fun result => ?_
  split
  · exact Prog.Only.ret _
  · exact Prog.Only.ret _
  · split
    · exact Prog.Only.bind (Prog.Only.perform rfl) fun
        | .ok () => Prog.Only.ret _
        | .error _ => Prog.Only.ret _
    · exact Prog.Only.ret _

theorem session_earlyRequestFilter {proxy : CompositeServiceProxy} {dynamic : DynamicGatewayState}
    {arrival : Arrival} {result : Except PingoraError Unit} {exchange : Exchange}
    (early : earlyRequestFilter proxy dynamic (arrival.exchange dynamic) = (result, exchange)) :
    exchange.session = arrival.session := by
  unfold earlyRequestFilter at early
  dsimp only at early
  split at early
  · cases early
    rfl
  · split at early <;> cases early <;> rfl

end Silence

/-- A payment as a command. -/
def payCommand : DynamicGatewayState := smallDynamic [] [StrategyRouter.payRoute]

def paid : Arrival := smallArrival .post [] payBody

def brokerDown : Environment := { obliging with brokerTakes := fun _ => false }

end SpectraGQL.Gateway
