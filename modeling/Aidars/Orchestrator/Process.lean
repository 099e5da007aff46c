import Aidars.Orchestrator.State

/-!
# The lifecycle of a workload

The steps of `_process_workload` between its `await`s, in the order of the source: `startRun` up to
the placement lock, `place` from the lock to the dispatch, `advanceCall` for the calls of the
dispatch, and `resume` from its answer to the next attempt or the return. A result, a lost record, a
refused submission and any other exception have a function each. The last of them has no `return`
after a spent budget, so the loop goes on.
-/

namespace Aidars.Orchestrator

variable (cfg : Config)

/-! ## Retries -/

/-- Failures that are worth another attempt. -/
def RETRYABLE_FAILURE_CATEGORIES : List FailureCategory :=
  [.workerUnavailable, .temporaryCasFailure, .resourceExhaustion, .executionTimeout,
    .assetTransferFailure, .assetStagingFailure]

/-- Another attempt should be made: the failure is retryable and the budget has room. -/
def shouldRetry (failureCategory : Option FailureCategory) (attemptsUsed maxAttempts : ℕ) : Bool :=
  failureCategory.any RETRYABLE_FAILURE_CATEGORIES.contains && attemptsUsed < maxAttempts

/-- Failures that exclude a worker from the further attempts of a workload. -/
def exhausts (failureCategory : Option FailureCategory) : Bool :=
  failureCategory.any [.workerUnavailable, .assetStagingFailure, .executionTimeout].contains

/-- The workers that earlier attempts have excluded. -/
def exhaustedWorkerIds (records : List AttemptRecord) : PySet String :=
  let failed := records.filter fun r => exhausts r.failureCategory
  PySet.ofList <|
    (failed.filter (·.status ≠ .lost)).filterMap (·.workerId) ++
    failed.flatMap fun r => match r.executionGroup with
      | some g => g.unavailableWorkerIds.toList
      | none => []

/-- A frame that excludes more workers. -/
def Frame.exhaust (f : Frame) (ids : List String) : Frame :=
  { f with exhaustedWorkerIds := ids.foldl PySet.insert f.exhaustedWorkerIds }

/-- Every worker that the job is confined to is excluded. -/
def Frame.allSelectedExhausted (f : Frame) : Bool :=
  f.jobSelectedIds.any fun ids => ids.toList ≠ [] && ids.toList.all (· ∈ f.exhaustedWorkerIds)

namespace State

/-- Promote a spare worker of the parent job, when workers are excluded and the job is confined. -/
def promoteSpare (s : State) (f : Frame) : State × Frame :=
  match f.parentJob, f.jobSelectedIds with
  | some jobId, some selected =>
    match s.jobs.get? jobId with
    | some job =>
      if f.exhaustedWorkerIds = ∅ then (s, f)
      else
        let (job, selected) :=
          job.maybePromoteSpareWorker selected f.exhaustedWorkerIds f.requiredWorkerCount
        ({ s with jobs := s.jobs.set jobId job }, { f with jobSelectedIds := some selected })
    | none => (s, f)
  | _, _ => (s, f)

/-- Go round the loop: one more attempt is used, and the run waits for the placement lock. -/
def nextAttempt (s : State) (w : String) (f : Frame) : State :=
  s.setPc w (.lockWait { f with attemptsUsed := f.attemptsUsed + 1 })

/-- Fail the workload and return. -/
def failRun (s : State) (w : String) (errorMessage : Option String) : State :=
  (s.updateState w .failed errorMessage).returnRun w

/-- Retry if the failure and the budget allow it, else fail the workload. -/
def retryOrFail (s : State) (w : String) (f : Frame) (failureCategory : Option FailureCategory)
    (errorMessage : String) : State :=
  if shouldRetry failureCategory f.attemptsUsed cfg.maxAttempts then s.nextAttempt w f
  else s.failRun w (some errorMessage)

/-! ## The first step -/

/-- The local variables of a run that reaches its loop. -/
def initialFrame (s : State) (w : String) (spec : WorkloadSpec) : Frame :=
  let jobId := spec.jobId.filter (· ≠ "")
  let job := jobId.bind s.jobs.get?
  { spec
    executionShape := (job.map (·.executionShape)).getD .singleMachine
    requiredWorkerCount := (job.map (·.requiredWorkerCount)).getD 1
    parentJob := job.bind fun _ => jobId
    jobSelectedIds := job.bind fun job => job.selectedWorkerIds.map PySet.ofList
    exhaustedWorkerIds := exhaustedWorkerIds (s.attempts.listAttemptsForWorkload w)
    attemptsUsed := s.attempts.attemptsUsed w }

/-- Enter the loop with a frame, unless the budget or the confinement is exhausted. -/
def enterLoop (s : State) (w : String) (f : Frame) : State :=
  let s := (s.updateState w .validating).updateState w .placing
  if cfg.maxAttempts ≤ f.attemptsUsed ∧ 0 < f.attemptsUsed then
    s.failRun w (some "Retry budget exhausted after prior execution attempts")
  else
    let (s, f) := s.promoteSpare f
    if f.allSelectedExhausted then
      s.failRun w (some
        "All assigned workers for this job have been exhausted by previous failed attempts")
    else s.nextAttempt w f

/-- The first step of a run: a cancelled workload or one that is not ready returns at once, and an
error raised for a dependency without a result ends the run. -/
def startRun (s : State) (w : String) : Option State :=
  match s.runs.get? w with
  | some .start =>
    match s.workloads.get? w with
    | none => some (s.returnRun w)
    | some record =>
      if record.state.isCancelled then some (s.returnRun w)
      else match s.dependencyState w record.spec.dependsOn with
        | (s, .ready) =>
          match s.specWithDependencyOutputs record.spec record.spec.dependsOn with
          | some spec => some (s.enterLoop cfg w (s.initialFrame w spec))
          | none => some (s.returnRun w)
        | (s, _) => some (s.returnRun w)
  | _ => none

/-! ## Placement -/

/-- The workers that placement considers. -/
def candidateWorkers (s : State) (f : Frame) : List WorkerInfo :=
  (s.registry.listWorkers false).filter fun info =>
    (f.jobSelectedIds.all (info.workerId ∈ ·)) && info.workerId ∉ f.exhaustedWorkerIds

/-- The workers on which other workloads of the affinity group were placed. -/
def groupWorkers (s : State) (w : String) (spec : WorkloadSpec) : PySet String :=
  if spec.affinityGroupId.any (· ≠ "") then
    PySet.ofList <| s.workloads.values.filterMap fun r =>
      if r.spec.workloadId ≠ w ∧ r.spec.affinityGroupId = spec.affinityGroupId then
        r.placementDecision.map (·.selectedWorkerId)
      else none
  else ∅

/-- The decisions of placement: those of a group, or a single one. A job that is split prefers
idle workers. -/
def choose (s : State) (w : String) (f : Frame) (ranking : Ranking) (now : ℚ) :
    Option (List PlacementDecision) :=
  let workers := s.candidateWorkers f
  let profiles := Placement.buildWorkerProfiles s.attempts workers
  let ctx : PlacementContext :=
    { workerTags := workers.foldl
        (fun tags info => tags.set info.workerId (Placement.effectiveWorkerTags cfg.text info)) ∅
      groupWorkers := s.groupWorkers w f.spec
      nowUtc := now }
  let evaluate := Placement.evaluate cfg.text ctx ranking f.spec
  if f.executionShape = .distributedNative then
    Placement.evaluateGroup cfg.text ctx ranking f.spec f.requiredWorkerCount profiles
  else
    let idle := profiles.filter (·.activeWorkloadCount = 0)
    let busy := profiles.filter (0 < ·.activeWorkloadCount)
    let preferIdle := f.executionShape = .taskSplit ∧
      (f.jobSelectedIds.any fun ids => 1 < ids.toList.length) ∧ idle ≠ [] ∧ busy ≠ []
    ((if preferIdle then evaluate idle else none).or (evaluate profiles)).map ([·])

/-- No worker was found: the workload fails if none is left to try, and waits otherwise. -/
def noDecision (s : State) (w : String) (f : Frame) : State :=
  let s := s.setPlacement w none
  let all := s.registry.listWorkers false
  if f.spec.requiredRuntimeCompatibility.any (· ≠ "") then
    (s.updateState w .unschedulable
      (some ("Required GPU runtime compatibility cannot be reported " ++
      "by the current worker telemetry"))).returnRun w
  else if f.allSelectedExhausted then
    s.failRun w (some
      "All assigned workers for this job have been exhausted by previous failed attempts")
  else if all ≠ [] ∧ all.all (·.workerId ∈ f.exhaustedWorkerIds) then
    s.failRun w (some "All available workers have been exhausted by previous failed attempts")
  else
    (s.updateState w .submitted
      (some "Waiting for an eligible worker; placement will be reconsidered")).returnRun w

/-- The calls of a dispatch. A member of a group is called under the latest attempt of the
workload. -/
def dispatchCalls (s : State) (f : Frame) (attemptId : String) (decision : PlacementDecision)
    (group : Option ExecutionGroup) : List Call :=
  match group with
  | none => [{ attemptId, workerId := decision.selectedWorkerId }]
  | some g => g.workerIds.zipIdx.map fun (workerId, rank) =>
    { attemptId := ((s.attempts.getLatestAttempt f.spec.workloadId).map (·.attemptId)).getD
        (f.spec.workloadId ++ "#group-" ++ toString rank)
      workerId }

/-- The execution group of the decisions, if the workload is executed by one. -/
def newGroup (f : Frame) (execId : String) (decisions : List PlacementDecision) :
    Option ExecutionGroup :=
  if f.executionShape = .distributedNative then some
    { executionId := execId
      workerIds := decisions.map (·.selectedWorkerId)
      requiredWorkerCount := f.requiredWorkerCount
      placementDecisions := decisions }
  else none

/-- The error with which the endpoints of a group are refused. -/
def endpointsError (workers : List WorkerInfo) (group : ExecutionGroup) : Option String :=
  group.workerIds.findSome? fun wid =>
    (workers.find? (·.workerId = wid)).bind fun info => cfg.endpointError info.endpointUrl

/-- Record the attempt that placement decided on. -/
def recordAttempt (s : State) (w : String) (decision : PlacementDecision)
    (group : Option ExecutionGroup) : State :=
  let s := (s.setPlacement w (some decision)).updateState w .placed
  let attempts := s.attempts.createAttempt w (some decision) group
  { s with attempts := attempts.markAssigned (s.attempts.nextId w) decision.selectedWorkerId }

/-- Dispatch a recorded attempt, or give it up when a selected worker is not in the snapshot. -/
def launch (s : State) (w : String) (f : Frame) (attemptId : String) (decision : PlacementDecision)
    (group : Option ExecutionGroup) (workers : List WorkerInfo) : State :=
  let missing := (selectedIds decision group).filter fun wid => wid ∉ workers.map (·.workerId)
  if missing ≠ [] then
    let message := "Selected worker group member(s) vanished before dispatch: " ++ listText missing
    let s := { s with attempts := s.attempts.markLost attemptId (some message) missing }
    s.retryOrFail cfg w (f.exhaust missing) (some .workerUnavailable) message
  else
    let s := { s with attempts := s.attempts.markRunning attemptId }
    let s := s.updateState w .executing
    s.setPc w (.dispatch f
      { attemptId, decision, executionGroup := group
        calls := s.dispatchCalls f attemptId decision group
        raised := group.bind (endpointsError cfg workers) })

/-- The step from the placement lock to the dispatch. `execId` names a new execution group. A group
of fewer than two workers is an error, which ends the run. -/
def place (s : State) (w : String) (ranking : Ranking) (now : ℚ) (execId : String) :
    Option State :=
  match s.runs.get? w with
  | some (.lockWait f) =>
    let (s, f) := s.promoteSpare f
    if f.executionShape = .distributedNative ∧ f.requiredWorkerCount < 2 then some (s.returnRun w)
    else match s.choose cfg w f ranking now with
      | none | some [] => some (s.noDecision w f)
      | some (decision :: rest) =>
        let group := newGroup f execId (decision :: rest)
        some ((s.recordAttempt w decision group).launch cfg w f (s.attempts.nextId w) decision group
          (s.candidateWorkers f))
  | _ => none

/-! ## Calls -/

/-- A result for an execution that did not report one. -/
def unsuccessfulResult (w workerId message : String) (failureCategory : FailureCategory) :
    WorkloadExecutionResult :=
  { workloadId := w, workerId, success := false, outputAssetHashes := ∅
    executionDurationSeconds := 0, errorMessage := some message
    failureCategory := some failureCategory }

def cancellationResult (w workerId : String) : WorkloadExecutionResult :=
  unsuccessfulResult w workerId "Execution cancelled by request" .executionFailure

def lostResult (w workerId : String) : WorkloadExecutionResult :=
  unsuccessfulResult w workerId "Owning worker was lost before completion" .workerUnavailable

/-- What a call is told by its worker. A submission or a poll is answered with a status that is
still running or terminal, with a bare result, with a missing record, or it fails. -/
inductive CallEvent
  | running
  | terminal (r : Option WorkloadExecutionResult)
  | bareResult (r : WorkloadExecutionResult)
  | submitUnavailable (message : String)
  | recordLost (message : String)
  | otherException (message : String)
  | pollFailed
  | woken
  | closed

/-- The head of the poll loop: cancellation and loss end the call without another poll. -/
def pollHead (s : State) (w : String) (c : Call) : Phase :=
  if s.isCancelled w then .closing (cancellationResult w c.workerId)
  else if s.isLost c.attemptId then .closing (lostResult w c.workerId)
  else .polling

/-- The next phase of a call. -/
def nextPhase (s : State) (w : String) (c : Call) : CallEvent → Option Phase
  | .running =>
    match c.phase with
    | .submitting => some (s.pollHead w c)
    | .polling => some .sleeping
    | _ => none
  | .terminal r =>
    match c.phase with
    | .submitting | .polling => some (.closing (r.getD (cancellationResult w c.workerId)))
    | _ => none
  | .bareResult r =>
    match c.phase with
    | .submitting | .polling => some (.answered (.result r))
    | _ => none
  | .submitUnavailable m =>
    match c.phase with
    | .submitting => some (.answered (.submitUnavailable m))
    | _ => none
  | .recordLost m =>
    match c.phase with
    | .polling => some (.answered (.recordLost m))
    | _ => none
  | .otherException m =>
    match c.phase with
    | .submitting | .polling => some (.answered (.otherException m))
    | _ => none
  | .pollFailed =>
    match c.phase with
    | .polling => some .sleeping
    | _ => none
  | .woken =>
    match c.phase with
    | .sleeping => some (s.pollHead w c)
    | _ => none
  | .closed =>
    match c.phase with
    | .closing r => some (.answered (.result r))
    | _ => none

/-- Advance the `i`-th call of a dispatch. -/
def advanceCall (s : State) (w : String) (i : ℕ) (event : CallEvent) : Option State :=
  match s.runs.get? w with
  | some (.dispatch f d) =>
    match d.calls[i]? with
    | some c =>
      (s.nextPhase f.spec.workloadId c event).map fun phase =>
        s.setPc w (.dispatch f { d with calls := d.calls.set i { c with phase } })
    | none => none
  | _ => none

/-! ## The answer of a dispatch -/

/-- The result of a group: success only when every member reports it. -/
def aggregate (spec : WorkloadSpec) (group : ExecutionGroup)
    (outcomes : List (String × CallReply)) :
      WorkloadExecutionResult × PySet String × PySet String :=
  let reported := outcomes.filterMap fun o => match o.2 with
    | .result r => some (o.1, r)
    | _ => none
  let results := reported.map Prod.snd
  let transport := PySet.ofList <| outcomes.filterMap fun o => match o.2 with
    | .result _ => none
    | _ => some o.1
  let unavailable : PySet String := transport.union <| PySet.ofList <|
    reported.filterMap fun (wid, r) =>
      if !r.success && r.failureCategory = some .workerUnavailable then some wid else none
  let memberFailure := results.find? fun r => !r.success || r.wasCheckpointed
  let longest := fun (d : WorkloadExecutionResult → PyFloat) => PyFloat.maxOf 0 (results.map d)
  ({ workloadId := spec.workloadId
     workerId := group.workerIds.headD ""
     success := results.length = group.requiredWorkerCount && unavailable = ∅ &&
       memberFailure.isNone
     outputAssetHashes := results.foldl (fun s r => s ∪ r.outputAssetHashes) ∅
     outputAssetSizes := results.foldl
       (fun d r => r.outputAssetSizes.entries.foldl (fun d e => d.set e.1 e.2) d) ∅
     executionDurationSeconds := longest (·.executionDurationSeconds)
     stagingDurationSeconds := longest (·.stagingDurationSeconds)
     outputIngestionDurationSeconds := longest (·.outputIngestionDurationSeconds)
     verificationDurationSeconds := longest (·.verificationDurationSeconds)
     failureCategory :=
       if unavailable ≠ ∅ then some .workerUnavailable
       else memberFailure.map fun r => r.failureCategory.getD .applicationError
     errorMessage :=
       if unavailable ≠ ∅ then
         some "One or more distributed execution group members became unavailable"
       else memberFailure.map fun r => if r.wasCheckpointed then
           "Distributed execution groups require a coordinated checkpoint, " ++
             "which this runtime did not provide"
         else "A distributed execution group member reported failure" },
    unavailable, transport)

/-- The answer of a group: its result, checked against the number of outputs it should have. -/
def groupReply (spec : WorkloadSpec) (group : ExecutionGroup)
    (outcomes : List (String × CallReply)) : Reply :=
  let (r, unavailable, transport) := aggregate spec group outcomes
  let expected := (spec.parameters.get? "expected_output_count").getD .null
  if r.success then
    match fewerThan r.outputAssetHashes.card expected with
    | .error m => .otherException m
    | .ok false => .result r unavailable transport
    | .ok true => .result { r with
        success := false
        failureCategory := some .applicationError
        errorMessage := some ("Distributed output verification failed: expected at least " ++
          numberText cfg.floatRepr expected ++ " output asset(s), found " ++
          toString r.outputAssetHashes.card ++ ".") } unavailable transport
  else .result r unavailable transport

/-- The answer of a single call. -/
def singleReply : CallReply → Reply
  | .result r => .result r ∅ ∅
  | .submitUnavailable m => .submitUnavailable m
  | .recordLost m => .recordLost m
  | .otherException m => .otherException m

/-- The answer of a dispatch, once every call has ended. -/
def dispatchReply (f : Frame) (d : Dispatch) : Option Reply :=
  match d.raised with
  | some m => some (.otherException m)
  | none =>
    match d.executionGroup with
    | some g => (d.calls.mapM fun (c : Call) => c.reply?.map (Prod.mk c.workerId)).map
        (groupReply cfg f.spec g)
    | none => (d.calls.head?.bind Call.reply?).map singleReply

/-! ## Handling the answer -/

/-- Record a failure of each worker. -/
def recordFailures (s : State) (ids : List String) (now : ℚ) : State :=
  { s with registry := ids.foldl (fun r wid => r.recordFailure cfg.registry wid 1 now) s.registry }

/-- A result that arrives for a cancelled workload: the attempt fails and the workload is
cancelled. -/
def cancelledResult (s : State) (w : String) (d : Dispatch) (r : WorkloadExecutionResult) : State :=
  let attempts := s.attempts.markFailed d.attemptId (some .executionFailure)
    (some "Execution cancelled by request") (some r)
  let s := { s with attempts }
  (s.updateState w .cancelled (some "Execution cancelled by user request")).returnRun w

/-- A checkpoint: the workload continues from it as a new submission. -/
def checkpointResult (s : State) (w : String) (f : Frame) (d : Dispatch)
    (r : WorkloadExecutionResult) : State :=
  let s := s.updateState w .migrating
  let s := { s with attempts := s.attempts.markSucceeded d.attemptId r }
  let s := match r.checkpointHash.filter (· ≠ "") with
    | some hash => s.updateSpec { f.spec with
        inputAssetHashes := insert hash f.spec.inputAssetHashes
        parameters := f.spec.parameters.set "resume_from_checkpoint" (.str hash) }
    | none => s
  let s := (s.setPlacement w none).updateState w .submitted
  (s.enqueueWorkload w).returnRun w

/-- The other active attempts of a workload. -/
def otherActiveAttempts (s : State) (w attemptId : String) : List String :=
  ((s.attempts.listAttemptsForWorkload w).filter fun a =>
    a.attemptId ≠ attemptId && a.status.isActive && a.workerId.any (· ≠ "")).map (·.attemptId)

/-- Fail the other active attempts of a workload. -/
def supersede (reg : AttemptRegistry) (ids : List String) : AttemptRegistry :=
  ids.foldl (fun reg id => reg.markFailed id (some .executionFailure)
    (some "Superseded by primary completion")) reg

/-- Index the outputs of a result at its worker. The artifacts that are recorded next are kept
apart; a size that their column cannot hold is excluded where it matters (`AnswersFit`). -/
def recordArtifacts (s : State) (r : WorkloadExecutionResult) : State :=
  if r.workerId ≠ "" ∧ r.outputAssetHashes ≠ ∅ then
    { s with registry := (s.registry.addWorkerHashes r.workerId r.outputAssetHashes.sort).1 }
  else s

/-- A success: the workload is completed, and its worker may take over a straggler. -/
def successResult (s : State) (w : String) (f : Frame) (d : Dispatch)
    (r : WorkloadExecutionResult) : State :=
  let s := ((s.setResult w r).updateState w .completed).recordArtifacts r
  let attempts := supersede s.attempts (s.otherActiveAttempts w d.attemptId)
  let steals := match f.spec.jobId.filter (· ≠ "") with
    | some jobId => s.steals ++ [(d.decision.selectedWorkerId, jobId)]
    | none => s.steals
  let s := { s with attempts := attempts.markSucceeded d.attemptId r, steals }
  s.returnRun w

/-- The status of an attempt after a failed result. -/
def settleFailure (s : State) (d : Dispatch) (r : WorkloadExecutionResult)
    (unavailable : PySet String) (groupAttemptWasLost : Bool) : State :=
  if unavailable ≠ ∅ ∨ groupAttemptWasLost ∨ s.isLost d.attemptId then
    let reason := ((s.attempts.getAttempt d.attemptId).bind (·.failureReason)).filter (· ≠ "")
    let attempts := s.attempts.markLost d.attemptId
      (reason <|> some "worker lost before completion") (unavailable.toList.insertionSort (· ≤ ·))
    { s with attempts }
  else
    let attempts := s.attempts.markFailed d.attemptId r.failureCategory r.errorMessage (some r)
    { s with attempts }

/-- A failed result: the attempt is settled, workers are excluded, and the run retries or stores the
result and fails the workload. -/
def failureResult (s : State) (w : String) (f : Frame) (d : Dispatch) (r : WorkloadExecutionResult)
    (unavailable : PySet String) (groupAttemptWasLost : Bool) (now : ℚ) : State :=
  let s := s.settleFailure d r unavailable groupAttemptWasLost
  let (s, f) :=
    if unavailable ≠ ∅ then
      (s.recordFailures cfg unavailable.toList now, f.exhaust unavailable.toList)
    else if exhausts r.failureCategory then (s, f.exhaust [d.decision.selectedWorkerId])
    else (s, f)
  if shouldRetry r.failureCategory f.attemptsUsed cfg.maxAttempts then s.nextAttempt w f
  else (s.setResult w r).failRun w r.errorMessage

/-- The end of the handling of a result. -/
def settleResult (s : State) (w : String) (f : Frame) (d : Dispatch) (r : WorkloadExecutionResult)
    (unavailable : PySet String) (groupAttemptWasLost : Bool) (now : ℚ) : State :=
  if r.wasCheckpointed then s.checkpointResult w f d r
  else if r.success then s.successResult w f d r
  else s.failureResult cfg w f d r unavailable groupAttemptWasLost now

/-- A group cannot be checkpointed by one of its members. -/
def rejectGroupCheckpoint (d : Dispatch) (r : WorkloadExecutionResult) : WorkloadExecutionResult :=
  if r.wasCheckpointed ∧ d.executionGroup.isSome then
    { r with
      success := false
      wasCheckpointed := false
      failureCategory := some .applicationError
      errorMessage := some ("Distributed execution groups require a coordinated checkpoint, " ++
        "which this runtime did not provide") }
  else r

/-- The result of a group whose attempt was lost. The group record names the unavailable workers,
besides those whose call raised. -/
def lostGroupResult (s : State) (w : String) (f : Frame) (d : Dispatch)
    (r : WorkloadExecutionResult) (transport : PySet String) (now : ℚ) : State :=
  let recorded := ((s.attempts.getAttempt d.attemptId).bind (·.executionGroup)).map
    (·.unavailableWorkerIds)
  s.settleResult cfg w f d { r with
    success := false
    failureCategory := some .workerUnavailable
    errorMessage := some "A distributed execution group member was lost before completion" }
    ((recorded.getD ∅).union transport) true now

/-- Handle a result. -/
def handleResult (s : State) (w : String) (f : Frame) (d : Dispatch) (r : WorkloadExecutionResult)
    (unavailable transport : PySet String) (now : ℚ) : State :=
  let r := rejectGroupCheckpoint d r
  if s.isCancelled w then s.cancelledResult w d r
  else if d.executionGroup.isSome ∧ s.isLost d.attemptId then
    match s.drainEvents.get? d.attemptId with
    | some _ => s.setPc w (.drainWait f d r transport)
    | none => s.lostGroupResult cfg w f d r transport now
  else s.settleResult cfg w f d r unavailable false now

/-- The worker has lost the execution. -/
def handleRecordLost (s : State) (w : String) (f : Frame) (d : Dispatch) (message : String)
    (now : ℚ) : State :=
  let s := s.recordFailures cfg d.workerIds now
  let s := { s with attempts := s.attempts.markLost d.attemptId (some message) d.workerIds }
  s.retryOrFail cfg w (f.exhaust d.workerIds) (some .workerUnavailable) message

/-- The worker has not accepted the execution. -/
def handleSubmitUnavailable (s : State) (w : String) (f : Frame) (d : Dispatch) (message : String)
    (now : ℚ) : State :=
  let s := s.recordFailures cfg d.workerIds now
  let attempts := s.attempts.markFailed d.attemptId (some .workerUnavailable) (some message)
  let s := { s with attempts }
  s.retryOrFail cfg w (f.exhaust d.workerIds) (some .workerUnavailable) message

/-- The status of an attempt whose dispatch raised. -/
def settleException (s : State) (d : Dispatch) (message : String) : State :=
  if d.executionGroup.isSome then
    { s with attempts := s.attempts.markLost d.attemptId (some message) d.workerIds }
  else
    let attempts := s.attempts.markFailed d.attemptId (some .workerUnavailable) (some message)
    { s with attempts }

/-- Any other exception. When the budget is spent the workload fails, and the loop goes round
again. -/
def handleOtherException (s : State) (w : String) (f : Frame) (d : Dispatch) (message : String)
    (now : ℚ) : State :=
  let s := (s.recordFailures cfg d.workerIds now).settleException d message
  let f := f.exhaust d.workerIds
  if shouldRetry (some .workerUnavailable) f.attemptsUsed cfg.maxAttempts then s.nextAttempt w f
  else (s.updateState w .failed (some message)).nextAttempt w f

/-- Handle the answer of a dispatch. -/
def handleReply (s : State) (w : String) (f : Frame) (d : Dispatch) (now : ℚ) : Reply → State
  | .result r unavailable transport => s.handleResult cfg w f d r unavailable transport now
  | .recordLost m => s.handleRecordLost cfg w f d m now
  | .submitUnavailable m => s.handleSubmitUnavailable cfg w f d m now
  | .otherException m => s.handleOtherException cfg w f d m now

/-- The step from the answer of a dispatch. -/
def resume (s : State) (w : String) (now : ℚ) : Option State :=
  match s.runs.get? w with
  | some (.dispatch f d) => (dispatchReply cfg f d).map (s.handleReply cfg w f d now)
  | _ => none

/-- The step from the event of a group drain. -/
def drainResume (s : State) (w : String) (now : ℚ) : Option State :=
  match s.runs.get? w with
  | some (.drainWait f d r transport) =>
    if s.drainEvents.get? d.attemptId = some true then
      let s := { s with drainEvents := s.drainEvents.erase d.attemptId }
      some (s.lostGroupResult cfg w f d r transport now)
    else none
  | _ => none

/-- The end of the wait of a returned run. -/
def finishRun (s : State) (w : String) : Option State :=
  match s.runs.get? w with
  | some .finishing =>
    some { s with processing := s.processing.erase w, runs := s.runs.erase w }
  | _ => none

end State

end Aidars.Orchestrator
