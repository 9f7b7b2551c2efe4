import SpectraGQL.Data.KeyedStore
import SpectraGQL.Http
import Mathlib.Algebra.Group.Nat.Defs
import SpectraGQL.Protocol.Response

/-! # The worker registry (`admin/registry.rs`)

Workers report on themselves, and the registry keeps the last word of each on every field, with the
newest of its logs.  Every operation runs under the lock of the map, so a run is a sequence of them;
each comes with the readings of the clock that it takes, in nanoseconds.
-/

namespace SpectraGQL.Admin

open Data SpectraGQL.Http SpectraGQL.Protocol

structure WorkerLogEntry where
  timestamp : String
  level : String
  message : String
  hlc : Option String
  deriving DecidableEq, Repr

structure WorkerTelemetryReport where
  workerId : String
  appId : Option String := none
  sink : Option String := none
  stream : Option String := none
  status : Option String := none
  uptimeSeconds : Option Nat := none
  processedEvents : Option Nat := none
  totalErrors : Option Nat := none
  lastEventHlc : Option String := none
  logs : Option (List WorkerLogEntry) := none
  deriving DecidableEq, Repr

structure WorkerLogsResponse where
  workerId : String
  appId : Option String
  status : String
  uptimeSeconds : Nat
  processedEvents : Nat
  totalErrors : Nat
  lastEventHlc : Option String
  logs : List WorkerLogEntry
  deriving DecidableEq, Repr

structure WorkerSummary where
  workerId : String
  appId : Option String
  sink : String
  stream : String
  status : String
  uptimeSeconds : Nat
  processedEvents : Nat
  totalErrors : Nat
  lastSeenSecsAgo : Nat
  deriving DecidableEq, Repr

structure WorkerState where
  workerId : String
  appId : Option String
  sink : String
  stream : String
  status : String
  uptimeSeconds : Nat
  processedEvents : Nat
  totalErrors : Nat
  lastEventHlc : Option String
  lastHeartbeat : Nat
  logs : List WorkerLogEntry
  deriving DecidableEq, Repr

namespace WorkerState

/-- What a worker starts with, when its first report comes in. -/
def new (report : WorkerTelemetryReport) (now : Nat) : WorkerState where
  workerId := report.workerId
  appId := report.appId
  sink := report.sink.getD "unknown"
  stream := report.stream.getD "default"
  status := "online"
  uptimeSeconds := 0
  processedEvents := 0
  totalErrors := 0
  lastEventHlc := none
  lastHeartbeat := now
  logs := []

/-- The newest log goes to the front, and what is over the cap leaves at the back. -/
def pushLogs (cap : Nat) (logs new : List WorkerLogEntry) : List WorkerLogEntry :=
  (new.foldl (fun logs log => log :: logs) logs).take cap

/-- A field is written if the report says something about it. -/
def report (cap : Nat) (state : WorkerState) (report : WorkerTelemetryReport) (now : Nat) : WorkerState :=
  { state with
    appId := report.appId <|> state.appId
    sink := report.sink.getD state.sink
    stream := report.stream.getD state.stream
    status := report.status.getD state.status
    uptimeSeconds := report.uptimeSeconds.getD state.uptimeSeconds
    processedEvents := report.processedEvents.getD state.processedEvents
    totalErrors := report.totalErrors.getD state.totalErrors
    lastEventHlc := report.lastEventHlc <|> state.lastEventHlc
    lastHeartbeat := now
    logs := match report.logs with
      | some new => pushLogs cap state.logs new
      | none => state.logs }

/-- `elapsed`; a clock that went backwards shows no time at all. -/
def elapsed (state : WorkerState) (now : Nat) : Nat := now - state.lastHeartbeat

/-- The status, if the worker has been heard of lately. -/
def shownStatus (livenessTimeout : Nat) (state : WorkerState) (now : Nat) : String :=
  if state.elapsed now ≤ livenessTimeout then state.status else "offline"

def logsResponse (livenessTimeout : Nat) (state : WorkerState) (limit now : Nat) : WorkerLogsResponse where
  workerId := state.workerId
  appId := state.appId
  status := state.shownStatus livenessTimeout now
  uptimeSeconds := state.uptimeSeconds
  processedEvents := state.processedEvents
  totalErrors := state.totalErrors
  lastEventHlc := state.lastEventHlc
  logs := state.logs.take (if limit = 0 then 50 else min limit state.logs.length)

def summary (livenessTimeout : Nat) (state : WorkerState) (now : Nat) : WorkerSummary where
  workerId := state.workerId
  appId := state.appId
  sink := state.sink
  stream := state.stream
  status := state.shownStatus livenessTimeout now
  uptimeSeconds := state.uptimeSeconds
  processedEvents := state.processedEvents
  totalErrors := state.totalErrors
  lastSeenSecsAgo := state.elapsed now / 10 ^ 9

/-- To ask for no logs is to ask for 50. -/
theorem logs_logsResponse (livenessTimeout : Nat) (state : WorkerState) (limit now : Nat) :
    (state.logsResponse livenessTimeout limit now).logs = state.logs.take (if limit = 0 then 50 else limit) := by
  unfold logsResponse
  split
  · rfl
  · rw [← List.take_take, List.take_length]

end WorkerState

structure WorkerRegistry where
  workers : AList fun _ : String => WorkerState
  maxLogsPerWorker : Nat
  livenessTimeout : Nat

/-- A report with the time at which it is taken down. -/
abbrev TimedReport := WorkerTelemetryReport × Nat

namespace WorkerRegistry

def new (maxLogsPerWorker livenessTimeout : Nat) : WorkerRegistry where
  workers := ∅
  maxLogsPerWorker := if maxLogsPerWorker = 0 then 200 else maxLogsPerWorker
  livenessTimeout := livenessTimeout

/-- `Default`: 200 logs, 15 s. -/
def default : WorkerRegistry := new 200 (15 * 10 ^ 9)

/-- `entry(..).or_insert_with(..)`, and then the report. -/
def enter (cap : Nat) (entry : Option WorkerState) (report : TimedReport) : WorkerState :=
  (entry.getD (.new report.1 report.2)).report cap report.1 report.2

def recordReport (registry : WorkerRegistry) (report : WorkerTelemetryReport) (now : Nat) : WorkerRegistry :=
  let entry := enter registry.maxLogsPerWorker (registry.workers.lookup report.workerId) (report, now)
  { registry with workers := registry.workers.insert report.workerId entry }

def clear (registry : WorkerRegistry) : WorkerRegistry := { registry with workers := ∅ }

def getWorkerLogs (registry : WorkerRegistry) (workerId : String) (limit now : Nat) : Option WorkerLogsResponse :=
  (registry.workers.lookup workerId).map fun state => state.logsResponse registry.livenessTimeout limit now

/-- Whether a worker belongs to the application asked for; `lowercase` is `str::to_lowercase`. -/
def matchesApp (lowercase : String → String) (appFilter appId : Option String) (workerId : String) : Bool :=
  match appFilter with
  | none => true
  | some app =>
    if app ≠ "" ∧ app ≠ "all" then
      match appId with
      | some own => eqIgnoreAsciiCase own app
      | none => containsText (lowercase workerId) (lowercase app)
    else true

/-- The clock is read for every worker anew. -/
def getActiveWorkersWithFilter (lowercase : String → String) (registry : WorkerRegistry)
    (appFilter : Option String) (now : String → Nat) : List WorkerSummary :=
  KeyedStore.listing WorkerSummary.workerId (fun key state =>
    if matchesApp lowercase appFilter state.appId state.workerId then
      some (state.summary registry.livenessTimeout (now key)) else none) registry.workers

def getActiveWorkers (lowercase : String → String) (registry : WorkerRegistry) (now : String → Nat) :
    List WorkerSummary :=
  registry.getActiveWorkersWithFilter lowercase none now

end WorkerRegistry

/-! ## What a worker has said -/

/-- What a run of the gateway does to the registry. -/
inductive RegistryOp where
  | recordReport (report : WorkerTelemetryReport) (now : Nat)
  | clear

namespace WorkerRegistry

def apply (registry : WorkerRegistry) : RegistryOp → WorkerRegistry
  | .recordReport report now => registry.recordReport report now
  | .clear => registry.clear

def run (registry : WorkerRegistry) (ops : List RegistryOp) : WorkerRegistry := ops.foldl apply registry

end WorkerRegistry

def RegistryOp.toStore : RegistryOp → StoreOp String TimedReport
  | .recordReport report now => .touch report.workerId (report, now)
  | .clear => .clear

/-- The reports of a worker since the registry was last cleared. -/
def reportsSince (workerId : String) (ops : List RegistryOp) : List TimedReport :=
  KeyedStore.since workerId (ops.map RegistryOp.toStore)

/-- The last that a worker has said about something. -/
def lastWord {α : Type} (field : WorkerTelemetryReport → Option α) (reports : List TimedReport) : Option α :=
  (reports.filterMap fun report => field report.1).getLast?

/-- All logs that were ever reported, oldest first. -/
def allLogs (reports : List TimedReport) : List WorkerLogEntry :=
  reports.flatMap fun report => report.1.logs.getD []

/-- What is known of a worker that has made these reports. -/
def WorkerState.ofReports (cap : Nat) (workerId : String) (reports : List TimedReport) : WorkerState where
  workerId := workerId
  appId := lastWord WorkerTelemetryReport.appId reports
  sink := (lastWord WorkerTelemetryReport.sink reports).getD "unknown"
  stream := (lastWord WorkerTelemetryReport.stream reports).getD "default"
  status := (lastWord WorkerTelemetryReport.status reports).getD "online"
  uptimeSeconds := (lastWord WorkerTelemetryReport.uptimeSeconds reports).getD 0
  processedEvents := (lastWord WorkerTelemetryReport.processedEvents reports).getD 0
  totalErrors := (lastWord WorkerTelemetryReport.totalErrors reports).getD 0
  lastEventHlc := lastWord WorkerTelemetryReport.lastEventHlc reports
  lastHeartbeat := (reports.getLast?.map Prod.snd).getD 0
  logs := (allLogs reports).reverse.take cap

/-! ## The last word -/

section LastWord

variable {α : Type} (field : WorkerTelemetryReport → Option α) (reports : List TimedReport) (report : TimedReport)

@[simp] theorem lastWord_nil : lastWord field [] = none := rfl

@[simp] theorem lastWord_append :
    lastWord field (reports ++ [report]) = (field report.1 <|> lastWord field reports) := by
  cases said : field report.1 <;> simp [lastWord, said]

@[simp] theorem allLogs_append : allLogs (reports ++ [report]) = allLogs reports ++ report.1.logs.getD [] := by
  simp [allLogs]

end LastWord

namespace WorkerState

theorem foldl_pushFront (logs new : List WorkerLogEntry) :
    new.foldl (fun logs log => log :: logs) logs = new.reverse ++ logs := by
  induction new generalizing logs with
  | nil => rfl
  | cons log rest inductionHypothesis => simp [inductionHypothesis]

/-- To cap the logs after each report is to cap them once. -/
theorem pushLogs_take (cap : Nat) (older new : List WorkerLogEntry) :
    pushLogs cap (older.reverse.take cap) new = (older ++ new).reverse.take cap := by
  rw [pushLogs, foldl_pushFront, List.reverse_append, List.take_append, List.take_append, List.take_take]
  congr 2
  omega

variable (cap : Nat) (workerId : String)

/-- One more report is the last word on all that it says something about. -/
theorem report_ofReports (reports : List TimedReport) (report : TimedReport) :
    (ofReports cap workerId reports).report cap report.1 report.2 = ofReports cap workerId (reports ++ [report]) := by
  obtain ⟨report, now⟩ := report
  have logs : (match report.logs with
      | some new => pushLogs cap ((allLogs reports).reverse.take cap) new
      | none => (allLogs reports).reverse.take cap) = (allLogs reports ++ report.logs.getD []).reverse.take cap := by
    cases report.logs with
    | none => simp
    | some new => exact pushLogs_take cap _ new
  simp [WorkerState.report, ofReports, logs]

/-- A worker that has not been heard of starts with its first report. -/
theorem enter_none (report : TimedReport) :
    WorkerRegistry.enter cap none report = ofReports cap report.1.workerId [report] := by
  have said := report_ofReports cap report.1.workerId [] report
  simp only [List.nil_append] at said
  rw [← said]
  -- what the first report says is written twice
  cases sink : report.1.sink <;> cases stream : report.1.stream <;>
    simp [WorkerRegistry.enter, WorkerState.report, new, ofReports, allLogs, sink, stream]

end WorkerState

namespace WorkerRegistry

theorem run_eq (registry : WorkerRegistry) (ops : List RegistryOp) :
    registry.run ops = { registry with
      workers := KeyedStore.run (fun _ => enter registry.maxLogsPerWorker) registry.workers
        (ops.map RegistryOp.toStore) } := by
  induction ops generalizing registry with
  | nil => rfl
  | cons op rest inductionHypothesis =>
    change (registry.apply op).run rest = _
    rw [inductionHypothesis]
    cases op <;> rfl

theorem workerId_of_mem_since {workerId : String} {ops : List RegistryOp} {report : TimedReport}
    (member : report ∈ reportsSince workerId ops) : report.1.workerId = workerId := by
  unfold reportsSince at member
  induction ops using List.reverseRecOn with
  | nil => cases member
  | append_singleton ops op inductionHypothesis =>
    rw [List.map_append, List.map_singleton, KeyedStore.since_append] at member
    cases op with
    | clear => cases member
    | recordReport said now =>
      simp only [RegistryOp.toStore, KeyedStore.record] at member
      split at member
      · rename_i same
        rcases List.mem_append.mp member with earlier | last
        · exact inductionHypothesis earlier
        · rw [List.mem_singleton.mp last]
          exact same
      · exact inductionHypothesis member

/-- What a worker's own reports make of it, one after the other. -/
theorem foldl_enter (cap : Nat) {workerId : String} {reports : List TimedReport}
    (own : ∀ report ∈ reports, report.1.workerId = workerId) :
    reports.foldl (fun entry report => some (enter cap entry report)) none =
      if reports = [] then none else some (.ofReports cap workerId reports) := by
  induction reports using List.reverseRecOn with
  | nil => rfl
  | append_singleton reports report inductionHypothesis =>
    have before := inductionHypothesis fun report member => own report (List.mem_append_left _ member)
    have isOwn : report.1.workerId = workerId := own report (by simp)
    rw [List.foldl_append, before]
    by_cases first : reports = []
    · subst first
      simp [WorkerState.enter_none, isOwn]
    · simp [first, enter, WorkerState.report_ofReports]

/-- The registry knows of each worker what its own reports since the last clear have made of it. -/
theorem lookup_run (maxLogsPerWorker livenessTimeout : Nat) (ops : List RegistryOp) (workerId : String) :
    ((new maxLogsPerWorker livenessTimeout).run ops).workers.lookup workerId =
      if reportsSince workerId ops = [] then none
      else some (.ofReports (if maxLogsPerWorker = 0 then 200 else maxLogsPerWorker) workerId
        (reportsSince workerId ops)) := by
  rw [run_eq]
  refine (KeyedStore.lookup_run _ workerId _).trans ?_
  exact foldl_enter _ fun report member => workerId_of_mem_since member

theorem livenessTimeout_run (maxLogsPerWorker livenessTimeout : Nat) (ops : List RegistryOp) :
    ((new maxLogsPerWorker livenessTimeout).run ops).livenessTimeout = livenessTimeout := by
  rw [run_eq]
  rfl

end WorkerRegistry

/-- After any run the registry tells of a worker the last word of its own reports since the last clear,
    and the newest of all logs in them, whatever other workers have reported in between; one whose last
    report is too old is offline. -/
theorem worker_logs_of_reports (maxLogsPerWorker livenessTimeout : Nat) (ops : List RegistryOp) (workerId : String)
    (limit now : Nat) :
    let reports := reportsSince workerId ops
    ((WorkerRegistry.new maxLogsPerWorker livenessTimeout).run ops).getWorkerLogs workerId limit now =
      if reports = [] then none
      else some {
        workerId := workerId
        appId := lastWord WorkerTelemetryReport.appId reports
        status :=
          if now - (reports.getLast?.map Prod.snd).getD 0 ≤ livenessTimeout then
            (lastWord WorkerTelemetryReport.status reports).getD "online"
          else "offline"
        uptimeSeconds := (lastWord WorkerTelemetryReport.uptimeSeconds reports).getD 0
        processedEvents := (lastWord WorkerTelemetryReport.processedEvents reports).getD 0
        totalErrors := (lastWord WorkerTelemetryReport.totalErrors reports).getD 0
        lastEventHlc := lastWord WorkerTelemetryReport.lastEventHlc reports
        logs := (allLogs reports).reverse.take
          (min (if limit = 0 then 50 else limit) (if maxLogsPerWorker = 0 then 200 else maxLogsPerWorker)) } := by
  intro reports
  have known := WorkerRegistry.lookup_run maxLogsPerWorker livenessTimeout ops workerId
  rw [WorkerRegistry.getWorkerLogs, known, WorkerRegistry.livenessTimeout_run]
  split
  · rfl
  · have logs := WorkerState.logs_logsResponse livenessTimeout
      (.ofReports (if maxLogsPerWorker = 0 then 200 else maxLogsPerWorker) workerId reports) limit now
    rw [WorkerState.ofReports, List.take_take] at logs
    exact congrArg some (congrArg _ logs)

/-! ## What is shown of the workers -/

namespace WorkerRegistry

variable {lowercase : String → String} {registry : WorkerRegistry} {appFilter : Option String} {now : String → Nat}

/-- Every worker is kept under its own name. -/
def Named (registry : WorkerRegistry) : Prop :=
  ∀ key state, registry.workers.lookup key = some state → state.workerId = key

theorem named_run (maxLogsPerWorker livenessTimeout : Nat) (ops : List RegistryOp) :
    ((new maxLogsPerWorker livenessTimeout).run ops).Named := by
  intro key state found
  rw [lookup_run] at found
  split at found
  · cases found
  · cases found
    rfl

theorem mem_getActiveWorkers (named : registry.Named) {summary : WorkerSummary} :
    summary ∈ registry.getActiveWorkersWithFilter lowercase appFilter now ↔
      ∃ workerId state, registry.workers.lookup workerId = some state ∧
        matchesApp lowercase appFilter state.appId workerId = true ∧
        summary = state.summary registry.livenessTimeout (now workerId) := by
  unfold getActiveWorkersWithFilter
  rw [KeyedStore.mem_listing]
  refine exists_congr fun workerId => exists_congr fun state => and_congr_right fun found => ?_
  rw [named workerId state found, Option.ite_none_right_eq_some, Option.some.injEq, eq_comm (a := summary)]

theorem sorted_getActiveWorkers (named : registry.Named) :
    (registry.getActiveWorkersWithFilter lowercase appFilter now).Pairwise
      fun left right => left.workerId < right.workerId := by
  refine KeyedStore.sorted_listing fun key state shown found shows => ?_
  obtain ⟨_, same⟩ := Option.ite_none_right_eq_some.mp shows
  cases same
  exact named key state found

/-- To ask for one application is to look for it among all workers. -/
theorem getActiveWorkersWithFilter_eq (named : registry.Named) :
    registry.getActiveWorkersWithFilter lowercase appFilter now =
      (registry.getActiveWorkers lowercase now).filter fun summary =>
        matchesApp lowercase appFilter summary.appId summary.workerId := by
  have : Std.Irrefl fun left right : WorkerSummary => left.workerId < right.workerId :=
    ⟨fun summary => lt_irrefl summary.workerId⟩
  have : Std.Antisymm fun left right : WorkerSummary => left.workerId < right.workerId :=
    ⟨fun _ _ first second => absurd second (lt_asymm first)⟩
  refine (sorted_getActiveWorkers named).eq_of_mem_iff ((sorted_getActiveWorkers named).filter _) fun summary => ?_
  rw [List.mem_filter, getActiveWorkers, mem_getActiveWorkers named, mem_getActiveWorkers named]
  constructor
  · rintro ⟨workerId, state, found, isMatch, rfl⟩
    refine ⟨⟨workerId, state, found, rfl, rfl⟩, ?_⟩
    rw [show (state.summary registry.livenessTimeout (now workerId)).workerId = workerId from
      named workerId state found]
    exact isMatch
  · rintro ⟨⟨workerId, state, found, _, rfl⟩, isMatch⟩
    rw [show (state.summary registry.livenessTimeout (now workerId)).workerId = workerId from
      named workerId state found] at isMatch
    exact ⟨workerId, state, found, isMatch, rfl⟩

end WorkerRegistry

/-- After any run the workers that have reported since the last clear are listed, each once and in the
    order of their names, if they belong to the application asked for; what is said of each is what
    its logs say, read at the same time, and they are its newest, as many as asked for. -/
theorem active_workers_listed (lowercase : String → String) (maxLogsPerWorker livenessTimeout : Nat)
    (ops : List RegistryOp) (appFilter : Option String) (now : String → Nat) :
    let registry := (WorkerRegistry.new maxLogsPerWorker livenessTimeout).run ops
    let listed := registry.getActiveWorkersWithFilter lowercase appFilter now
    listed.Pairwise (fun left right => left.workerId < right.workerId) ∧
    (∀ workerId, (∃ summary ∈ listed, summary.workerId = workerId) ↔ reportsSince workerId ops ≠ [] ∧
      WorkerRegistry.matchesApp lowercase appFilter
        (lastWord WorkerTelemetryReport.appId (reportsSince workerId ops)) workerId = true) ∧
    ∀ summary ∈ listed, ∀ limit, ∃ logs,
      registry.getWorkerLogs summary.workerId limit (now summary.workerId) = some logs ∧
      logs.status = summary.status ∧ logs.appId = summary.appId ∧ logs.uptimeSeconds = summary.uptimeSeconds ∧
      logs.processedEvents = summary.processedEvents ∧ logs.totalErrors = summary.totalErrors ∧
      logs.logs = (allLogs (reportsSince summary.workerId ops)).reverse.take
        (min (if limit = 0 then 50 else limit) (if maxLogsPerWorker = 0 then 200 else maxLogsPerWorker)) := by
  intro registry listed
  have named : registry.Named := WorkerRegistry.named_run maxLogsPerWorker livenessTimeout ops
  have known := WorkerRegistry.lookup_run maxLogsPerWorker livenessTimeout ops
  refine ⟨WorkerRegistry.sorted_getActiveWorkers named, fun workerId => ?_, fun summary isListed limit => ?_⟩
  · constructor
    · rintro ⟨summary, isListed, isNamed⟩
      obtain ⟨key, state, found, isMatch, rfl⟩ := (WorkerRegistry.mem_getActiveWorkers named).mp isListed
      obtain rfl : key = workerId := (named key state found).symm.trans isNamed
      rw [known, Option.ite_none_left_eq_some] at found
      obtain ⟨reported, same⟩ := found
      cases same
      exact ⟨reported, isMatch⟩
    · rintro ⟨reported, isMatch⟩
      have found := known workerId
      rw [if_neg reported] at found
      exact ⟨_, (WorkerRegistry.mem_getActiveWorkers named).mpr ⟨workerId, _, found, isMatch, rfl⟩, rfl⟩
  · obtain ⟨workerId, state, found, _, rfl⟩ := (WorkerRegistry.mem_getActiveWorkers named).mp isListed
    obtain rfl := named workerId state found
    refine ⟨_, congrArg (Option.map _) found, rfl, rfl, rfl, rfl, rfl, ?_⟩
    have said := known state.workerId
    rw [found] at said
    split at said
    · cases said
    · have logs : state.logs = _ := congrArg WorkerState.logs (Option.some.inj said)
      rw [WorkerState.logs_logsResponse, logs]
      exact List.take_take

end SpectraGQL.Admin
