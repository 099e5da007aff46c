import Aidars.Foundations.Run
import Aidars.Orchestrator.Process
import Aidars.Store.Jobs

/-!
# The orchestrator as a transition system

`step` takes one uninterrupted segment of one coroutine, named by an `Action`; what the segment
cannot decide by itself (the answers of workers, the clock, the order of ranking and admission) is
part of the action. Runs of the coordinator are lists of actions, in any order in which each is
enabled. `restart` ends all coroutines and reads the registries back from the state store.

Besides the segments of `_process_workload` there are those of the admission loop, of cancellation,
of worker loss and drain, and of speculative work stealing. The latter refers to a name that its
module does not import (`lookupGlobal`).
-/

namespace Aidars.Orchestrator

variable (cfg : Config)

/-! ## Names of the module -/

/-- The names that the orchestrator's module binds at its top level: imports, classes and the
logger. -/
def moduleGlobals : List String :=
  ["annotations", "asyncio", "logging", "os", "sys", "time", "uuid", "httpx", "urlsplit",
    "urlunsplit", "quote", "Dict", "List", "Literal", "Optional", "Set", "Tuple", "Union",
    "ArtifactRegistry", "AttemptRegistry", "AttemptStatus", "CompletionPolicy", "JobRegistry",
    "ExecutionDescription", "ExecutionGroup", "ExecutionShape", "FailureCategory",
    "JobSubmissionInfeasibleError", "RuntimeExecutionContext", "WorkerStatus",
    "WorkloadExecutionRequest", "ExecutionSubmitRequest", "ExecutionStatus", "ExecutionState",
    "WorkloadSpec", "WorkloadExecutionResult", "PlacementEngine", "WorkerRegistry",
    "DEFAULT_MAX_ATTEMPTS", "should_retry", "ClusterSizer", "SizingRequest", "WorkloadRegistry",
    "WorkloadState", "TERMINAL_WORKLOAD_STATES", "logger", "WorkerExecutionUnavailable",
    "WorkerExecutionSubmitUnavailable", "WorkerExecutionRecordLost", "WorkloadOrchestrator"]

/-- A name that is not bound. -/
structure NameError where
  name : String
  deriving DecidableEq

/-- Look up a global name. -/
def lookupGlobal (name : String) : Except NameError Unit :=
  if moduleGlobals.contains name then .ok () else .error ⟨name⟩

namespace State

/-! ## Submission and admission -/

/-- Submit a workload; a conflicting submission is rejected. -/
def submitWorkload (cfg : Config) (s : State) (spec : WorkloadSpec) : State :=
  match s.addWorkload cfg spec with
  | some s => s.enqueueWorkload spec.workloadId
  | none => s

/-- Create a job, unless there is one with its identifier or its record is rejected. -/
def createJob (s : State) (job : JobRecord) : State :=
  match s.jobs.get? job.jobId, job.create with
  | none, .ok job => { s with jobs := s.jobs.set job.jobId job }
  | _, _ => s

/-- One turn of the dependency check of the admission loop: ready workloads are collected. -/
def checkReady (acc : State × List String) (w : String) : State × List String :=
  match acc.1.workloads.get? w with
  | some r =>
    match acc.1.dependencyState w r.spec.dependsOn with
    | (s, .ready) => (s, acc.2 ++ [w])
    | (s, _) => (s, acc.2)
  | none => acc

/-- The queued workloads that wait and are not being processed. -/
def pendingIds (s : State) : List String :=
  s.queued.toList.filter fun w => s.stateOf w = some .submitted && w ∉ s.processing

/-- Start the run of a workload. -/
def startTask (s : State) (w : String) : State :=
  { s with
    queued := s.queued.erase w
    processing := s.processing.insert w
    runs := s.runs.set w .start }

/-- One pass of the admission loop. `order` is the ready workloads by urgency, as many of which are
started as there are free tasks. -/
def admissionPass (s : State) (order : List String) : Option State :=
  let (s, ready) := s.pendingIds.foldl checkReady (s, [])
  if order.isPerm ready then
    let queued := s.queued.toList.filter fun w => s.stateOf w = some .submitted
    let s := { s with queued := PySet.ofList queued }
    some <| (order.take (max 1 cfg.maxDispatchTasks - s.processing.toList.length)).foldl startTask s
  else none

/-- The time limit of the admission loop: waiting workloads are queued again. -/
def admissionTimeout (s : State) : State :=
  let waiting := s.workloads.keys.filter fun w =>
    s.stateOf w = some .submitted && w ∉ s.processing
  { s with queued := waiting.foldl PySet.insert s.queued }

/-! ## Cancellation -/

/-- The end of a cancellation. -/
def finishCancel (s : State) (w : String) : State :=
  let s := s.updateState w .cancelled (some "Execution cancelled by user request")
  { s with queued := s.queued.erase w }

/-- A worker has to be told of the cancellation: the latest attempt is active on a registered
worker. -/
def cancelNeedsWorker (s : State) (w : String) : Bool :=
  (s.attempts.getLatestAttempt w).any fun a =>
    a.status.isActive && a.workerId.any fun wid => wid ≠ "" && (s.registry.workers.get? wid).isSome

/-- The first segment of `cancel_workload`. -/
def cancelStart (s : State) (w : String) : State :=
  match s.stateOf w with
  | none => s
  | some st =>
    if st.isTerminal then s
    else
      let s := s.updateState w .cancellationRequested (some "Cancellation requested by user")
      if s.cancelNeedsWorker w then { s with cancels := s.cancels ++ [w] } else s.finishCancel w

/-- The segment of `cancel_workload` after the worker's answer. -/
def cancelFinish (s : State) (w : String) : Option State :=
  if w ∈ s.cancels then some ({ s with cancels := s.cancels.erase w }.finishCancel w) else none

/-! ## Loss and drain of workers -/

/-- Mark the attempts lost. -/
def loseAttempts (reg : AttemptRegistry) (ids : List String) (reason workerId : String) :
    AttemptRegistry :=
  ids.foldl (fun reg id => reg.markLost id (some reason) [workerId]) reg

/-- An evicted worker loses its active attempts. -/
def handleWorkerLost (s : State) (x : String) : State :=
  let ids := (s.attempts.listRunningAttemptsForWorker x).map (·.attemptId)
  { s with attempts :=
      loseAttempts s.attempts ids ("worker " ++ x ++ " evicted (heartbeat timeout)") x }

/-- Evict the workers whose heartbeat has expired. -/
def evictionPass (s : State) (now : ℚ) : State :=
  let (registry, evicted) := s.registry.evictExpiredWorkers cfg.registry none now
  evicted.foldl handleWorkerLost { s with registry }

/-- The first segment of `drain_worker`: the group attempts of the worker are lost, and their runs
wait for the checkpoint requests. -/
def drainStart (s : State) (x : String) : State :=
  let ids := ((s.attempts.listRunningAttemptsForWorker x).filter (·.executionGroup.isSome)).map
    (·.attemptId)
  if ids = [] then s
  else { s with
    attempts := loseAttempts s.attempts ids
      ("execution group drained because worker " ++ x ++ " is draining") x
    drainEvents := ids.foldl (fun events id => events.set id false) s.drainEvents
    drains := s.drains ++ [ids] }

/-- The segment of `drain_worker` after the checkpoint requests. -/
def drainFinish (s : State) (i : ℕ) : Option State :=
  s.drains[i]?.map fun ids => { s with
    drainEvents := ids.foldl (fun events id => events.modify id fun _ => true) s.drainEvents
    drains := s.drains.eraseIdx i }

/-! ## Work stealing -/

/-- The workload may be cloned onto the idle worker: it executes under one active attempt, on
another worker, and was not cloned before. -/
def isStraggler (s : State) (idle w : String) : Bool :=
  (s.workloads.get? w).any fun r =>
    r.state = .executing && !r.speculativeCloned &&
      match (s.attempts.listAttemptsForWorkload w).filter (·.status.isActive) with
      | [a] => a.workerId ≠ some idle
      | _ => false

/-- `_maybe_speculative_steal_straggler`: an idle healthy worker selects a straggler of the job. -/
def maybeSpeculativeStealStraggler (s : State) (idle jobId : String) : State :=
  let eligible := (s.registry.workers.get? idle).any fun info =>
    info.isHealthy && info.status = .active
  if eligible && s.attempts.listRunningAttemptsForWorker idle = [] then
    match (s.jobs.get? jobId).bind fun job => job.workloadIds.toList.find? (s.isStraggler idle) with
    | some w =>
      let s := s.modifyWorkload w fun r => { r with speculativeCloned := true }
      { s with clones := s.clones ++ [(w, idle)] }
    | none => s
  else s

/-- The decision of a speculative clone. -/
def speculativeDecision (w x : String) (spec : WorkloadSpec) (info : WorkerInfo) (now : ℚ) :
    PlacementDecision :=
  { workloadId := w
    selectedWorkerId := x
    placementScore := 1
    scoreBreakdown := ((∅ : Dict String PyFloat).set "compute" 1).set "speculative" 1
    missingAssetsOnWorker := spec.inputAssetHashes.filter (· ∉ info.inventoryHashes)
    executionTier := "lan"
    decisionTimestampUtc := .finite now }

/-- `_execute_speculative_attempt` up to its dispatch: the clone of an executing workload is
recorded as an attempt that runs on the target worker. -/
def executeSpeculativeAttempt (s : State) (w x : String) (now : ℚ) : Except NameError State :=
  match s.workloads.get? w, s.registry.workers.get? x with
  | some r, some info =>
    if r.state ≠ .executing then .ok s
    else do
      lookupGlobal "PlacementDecision"
      let decision := speculativeDecision w x r.spec info now
      let id := s.attempts.nextId w
      let attempts := s.attempts.createAttempt w (some decision) none
      return { s with attempts := (attempts.markAssigned id x).markRunning id }
  | _, _ => .ok s

/-- Run the `i`-th work-stealing task. -/
def stealStep (s : State) (i : ℕ) : Option State :=
  s.steals[i]?.map fun (idle, jobId) =>
    { s with steals := s.steals.eraseIdx i }.maybeSpeculativeStealStraggler idle jobId

/-- Run the `i`-th clone task; an error ends the task. -/
def cloneStep (s : State) (i : ℕ) (now : ℚ) : Option State :=
  s.clones[i]?.map fun (w, x) =>
    let s := { s with clones := s.clones.eraseIdx i }
    match s.executeSpeculativeAttempt w x now with
    | .ok s => s
    | .error _ => s

/-! ## Restart -/

/-- An attempt that was in flight when the coordinator stopped is lost. -/
def loseInFlight (r : AttemptRecord) : AttemptRecord :=
  if r.status.isActive then
    { r with
      status := .lost
      failureCategory := some .workerUnavailable
      failureReason := (r.failureReason.filter (· ≠ "")) <|>
        some "coordinator restarted while this attempt was in flight"
      executionGroup := AttemptRegistry.setGroupState .lost r.executionGroup }
  else r

/-- The attempts read back from the store. The attempts of a workload are listed by number, which is
the order they have. -/
def restoreAttempts (reg : AttemptRegistry) : AttemptRegistry :=
  { attempts := reg.attempts.filterMapValues fun r =>
      (StateStore.reloadAttempt r).map loseInFlight
    byWorkload := reg.byWorkload.mapValues fun _ ids => ids.filter fun id =>
      (reg.getAttempt id).any fun r => (StateStore.reloadAttempt r).isSome }

/-- Drive a recovered workload again, unless it is terminal. -/
def redrive (r : WorkloadRecord) : WorkloadRecord :=
  if r.state.isTerminal then r
  else { r with placementDecision := none, state := .submitted }

/-- The workers read back from the store: they are offline until they prove to be alive. -/
def restoreWorkers (r : WorkerRegistry) (now : ℚ) : WorkerRegistry :=
  r.workers.values.foldl (fun acc info => acc.apply cfg.registry
    (.registerWorker { info with status := .offline, lastHeartbeatUtc := now } now)) {}

/-- Restart the coordinator. -/
def restart (s : State) (now : ℚ) : State :=
  let workloads := s.workloads.filterMapValues fun r =>
    (StateStore.reloadWorkload cfg.floatRepr r).map redrive
  { workloads
    attempts := restoreAttempts s.attempts
    registry := restoreWorkers cfg s.registry now
    jobs := s.jobs.filterMapValues StateStore.reloadJob
    queued := PySet.ofList (workloads.keys.filter fun w =>
      (workloads.get? w).any fun r => !r.state.isTerminal) }

end State

/-! ## Steps -/

/-- The segments of the coroutines. -/
inductive Action
  | submitWorkload (spec : WorkloadSpec)
  | createJob (job : JobRecord)
  | admissionPass (order : List String)
  | admissionTimeout
  | startRun (w : String)
  | place (w : String) (ranking : Ranking) (now : ℚ) (execId : String)
  | callEvent (w : String) (i : ℕ) (event : State.CallEvent)
  | resume (w : String) (now : ℚ)
  | drainResume (w : String) (now : ℚ)
  | finishRun (w : String)
  | cancelStart (w : String)
  | cancelFinish (w : String)
  | workerLost (x : String)
  | evictionPass (now : ℚ)
  | drainStart (x : String)
  | drainFinish (i : ℕ)
  | registryOp (op : WorkerRegistry.Op)
  | steal (i : ℕ)
  | clone (i : ℕ) (now : ℚ)
  | restart (now : ℚ)

/-- One step of the orchestrator. -/
def step (s : State) : Action → Option State
  | .submitWorkload spec => some (s.submitWorkload cfg spec)
  | .createJob job => some (s.createJob job)
  | .admissionPass order => s.admissionPass cfg order
  | .admissionTimeout => some s.admissionTimeout
  | .startRun w => s.startRun cfg w
  | .place w ranking now execId => s.place cfg w ranking now execId
  | .callEvent w i event => s.advanceCall w i event
  | .resume w now => s.resume cfg w now
  | .drainResume w now => s.drainResume cfg w now
  | .finishRun w => s.finishRun w
  | .cancelStart w => some (s.cancelStart w)
  | .cancelFinish w => s.cancelFinish w
  | .workerLost x => some (s.handleWorkerLost x)
  | .evictionPass now => some (s.evictionPass cfg now)
  | .drainStart x => some (s.drainStart x)
  | .drainFinish i => s.drainFinish i
  | .registryOp op => some { s with registry := s.registry.apply cfg.registry op }
  | .steal i => s.stealStep i
  | .clone i now => s.cloneStep i now
  | .restart now => some (s.restart cfg now)

/-- The state after a list of steps. -/
def runSteps (s : State) (as : List Action) : Option State := runFrom (step cfg) s as

end Aidars.Orchestrator
