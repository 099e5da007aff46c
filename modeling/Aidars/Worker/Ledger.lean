import Aidars.Foundations.Run
import Aidars.Worker.Execution

/-!
# The execution ledger of a worker

A worker keeps a record of each execution, by the coordinator's attempt identifier, and a background
task that runs it (`_run_execution_record`, with `execute_workload` of the worker and of its
`ExecutionManager`). `taskStep` takes the task from one of its `await`s to the next; what the
segment does to the runtimes and sandboxes that the executions share, it lists as `Effect`s, in the
order of the source. Both are named by the workload, not by the attempt. Between the segments of the
tasks come the requests of the coordinator: submission, cancellation, acknowledgement.

A `Task` that is cancelled is resumed with a `CancelledError` the next time. Before its first step
this means that the body of the task never runs (`throwCancelled`).

`execution_ledger` states what the coordinator can rely on, along all runs in which each
cancellation reaches its execution (`ReachesExecution`).
-/

namespace Aidars.Worker

/-- The state of an execution. -/
inductive ExecutionState
  | accepted
  | running
  | succeeded
  | failed
  | cancelled
  deriving DecidableEq, Repr

/-- The execution has ended. -/
def ExecutionState.isTerminal (st : ExecutionState) : Bool :=
  [ExecutionState.succeeded, .failed, .cancelled].contains st

/-- Where the task of an execution is suspended: before its first step, at the synchronization of
missing assets, at the shared one, at the abort of an older execution, at its runtime (which may
have returned before the task resumes), at the cancellation of its runtime after a timeout or after
its own cancellation, at the ingestion of its outputs; or it has ended. -/
inductive Pc
  | created
  | syncing (missing : List String)
  | sharedSync
  | aborting
  | executing (returned : Option Outcome)
  | timingOut
  | cancelling
  | ingesting (rt : Runtime) (o : Outcome)
  | ended
  deriving DecidableEq

/-- The record of an execution, with its task. `contextual` tells that it has an execution context,
and `mustCancel` that its task was cancelled and will be resumed with a `CancelledError`. -/
structure Record where
  spec : WorkloadSpec
  contextual : Bool := false
  state : ExecutionState := .accepted
  result : Option WorkloadExecutionResult := none
  cancelRequested : Bool := false
  pc : Pc := .created
  mustCancel : Bool := false
  runtime : Runtime := {}
  deriving DecidableEq

/-- What a segment of a task does to the runtimes and sandboxes of the worker. -/
inductive Effect
  | checkpoint (attemptId : String)
  | removeSandbox
  | makeSandbox
  | register
  | pop
  deriving DecidableEq

/-- What became of one asset. -/
structure Transfer where
  sha256 : String
  success : Bool
  errorMessage : Option String := none
  deriving DecidableEq

/-- How a synchronization ends. -/
inductive SyncReply
  | results (l : List Transfer)
  | raised (message : String)
  | cancelledError

/-- How the workspace is prepared and the inputs are staged. -/
inductive Staging
  | workspaceFailed (message : String)
  | metadataFailed (message : String)
  | stagingFailed (sha256 message : String)
  | missingLocal (hashes : List String)
  | staged

/-- What a segment that enters the execution manager meets there. -/
structure Entry where
  abortRaises : Bool := false
  staging : Staging := .staged
  times : Durations := {}

/-- What a segment that leaves the runtime meets: whether there are outputs to ingest. -/
structure Exit where
  hasOutputs : Bool := false
  times : Durations := {}

/-- What a task is resumed with. -/
inductive Event
  | start (missing : Except String (List String)) (entry : Entry)
  | synced (reply : SyncReply) (entry : Entry)
  | sharedSynced (reply : SyncReply) (entry : Entry)
  | aborted (entry : Entry)
  | processEnd (e : ProcessEnd) (inTask : Bool) (exit : Exit)
  | runtimeReturned (exit : Exit)
  | timeout
  | cancelReturned (raised : Option String) (exit : Exit)
  | ingested (ing : Ingestion) (times : Durations)
  | throwCancelled (exit : Exit)

/-! ## Tasks -/

namespace Record

variable (cfg : Config)

/-- Record a result. -/
def deliver (r : Record) (result : WorkloadExecutionResult) : Record :=
  { r with
    result := some result
    state := if r.cancelRequested then .cancelled
      else if result.success then .succeeded else .failed
    pc := .ended }

/-- The task has failed, with a result that says why. -/
def failWith (r : Record) (message : String) (category : FailureCategory) : Record :=
  { r with
    result := some (failedResult cfg r.spec.workloadId message category)
    state := .failed
    pc := .ended }

/-- An exception has reached the record. -/
def raise (r : Record) (message : String) : Record := r.failWith cfg message .executionFailure

/-- A `CancelledError` has reached the record. -/
def raiseCancelled (r : Record) : Record :=
  { r with
    result := some (failedResult cfg r.spec.workloadId "Execution cancelled by request"
      .executionFailure)
    state := .cancelled
    pc := .ended
    mustCancel := false }

/-! ### The execution manager -/

/-- The end of `ExecutionManager.execute_workload`. -/
def finishExecution (r : Record) (rt : Runtime) (o : Outcome) (ing : Ingestion)
    (times : Durations) :
    Record × List Effect :=
  match finish cfg r.spec r.contextual rt o ing times with
  | .ok result => (r.deliver result, [.removeSandbox])
  | .error message => (r.raise cfg message, [])

/-- The runtime phase ends, and the outputs are ingested if there are any. -/
def leaveRuntime (r : Record) (o : Outcome) (exit : Exit) : Record × List Effect :=
  if ingests r.runtime o && exit.hasOutputs then ({ r with pc := .ingesting r.runtime o }, [.pop])
  else
    let (r, effects) := r.finishExecution cfg r.runtime o {} exit.times
    (r, .pop :: effects)

/-- Prepare the workspace, stage the inputs and start the runtime. -/
def isolate (r : Record) (entry : Entry) : Record × List Effect :=
  let w := r.spec.workloadId
  let made := [Effect.removeSandbox, .makeSandbox]
  let failed := fun message category staging =>
    r.deliver (failedResult cfg w message category staging entry.times.transfer)
  match entry.staging with
  | .workspaceFailed message =>
    (failed ("Failed to create workspace: " ++ message) .assetStagingFailure 0, [.removeSandbox])
  | .metadataFailed message => (r.raise cfg message, made)
  | .stagingFailed sha256 message =>
    (failed ("Failed to stage dependency " ++ sha256 ++ ": " ++ message) .assetStagingFailure
      entry.times.staging, made)
  | .missingLocal hashes =>
    (failed ("Missing dependencies locally: " ++ listText hashes) .temporaryCasFailure
      entry.times.staging, made)
  | .staged => ({ r with pc := .executing none }, made ++ [.register])

/-- The beginning of `ExecutionManager.execute_workload`. An unsafe identifier is answered with a
failure category that does not exist, which raises. An execution of the workload that is registered
is asked to checkpoint. -/
def enterManager (existing : Option String) (r : Record) (entry : Entry) : Record × List Effect :=
  if isSafeWorkloadId r.spec.workloadId then
    match existing with
    | some attemptId =>
      if entry.abortRaises then
        let (r, effects) := r.isolate cfg entry
        (r, .checkpoint attemptId :: effects)
      else ({ r with pc := .aborting }, [.checkpoint attemptId])
    | none => r.isolate cfg entry
  else (r.raise cfg "INPUT_VALIDATION_ERROR", [])

/-- The beginning of `DistributedWorker.execute_workload`. -/
def enterExecute (existing : Option String) (r : Record) (entry : Entry) : Record × List Effect :=
  if r.spec.inputAssetHashes = ∅ then r.enterManager cfg existing entry
  else ({ r with pc := .sharedSync }, [])

/-- The first segment of the task. -/
def start (existing : Option String) (r : Record) (missing : Except String (List String))
    (entry : Entry) : Record × List Effect :=
  let r := { r with state := .running }
  if r.cancelRequested then ({ r with state := .cancelled, pc := .ended }, [])
  else if r.spec.inputAssetHashes = ∅ then r.enterExecute cfg existing entry
  else match missing with
    | .error message => (r.raise cfg message, [])
    | .ok [] => r.enterExecute cfg existing entry
    | .ok missing => ({ r with pc := .syncing missing }, [])

/-- The missing assets have been synchronized. -/
def synced (existing : Option String) (r : Record) (missing : List String) (entry : Entry) :
    SyncReply → Record × List Effect
  | .results l =>
    let failedHashes := missing.filter fun h => (l.find? (·.sha256 = h)).all (!·.success)
    if failedHashes = [] then r.enterExecute cfg existing entry
    else (r.failWith cfg ("Failed to synchronize missing input assets: " ++ listText failedHashes)
      .assetStagingFailure, [])
  | .raised message => (r.raise cfg message, [])
  | .cancelledError => (r.raiseCancelled cfg, [])

/-- The shared synchronization has ended. -/
def sharedSynced (existing : Option String) (r : Record) (entry : Entry) :
    SyncReply → Record × List Effect
  | .results l =>
    match l.find? (!·.success) with
    | some t => (r.deliver (failedResult cfg r.spec.workloadId
        ("Failed to sync dependency " ++ t.sha256 ++ ": " ++ t.errorMessage.getD "None")
        .assetTransferFailure 0 entry.times.transfer), [])
    | none => r.enterManager cfg existing entry
  | .raised message => (r.raise cfg message, [])
  | .cancelledError => (r.raiseCancelled cfg, [])

/-- The cancellation of the runtime has returned, or it has raised. -/
def cancelReturned (r : Record) (o : Outcome) (raised : Option String) (exit : Exit) :
    Record × List Effect :=
  match raised with
  | none => r.leaveRuntime cfg o exit
  | some message => (r.raise cfg message, [.pop])

/-- The runtime is asked to cancel. -/
def cancelRuntime (r : Record) : Record :=
  { r with runtime := { r.runtime with cancelRequested := true } }

/-- The task is resumed with a `CancelledError`. A runtime that has returned wins over it. -/
def throwCancelled (r : Record) (exit : Exit) : Option (Record × List Effect) :=
  match r.pc with
  | .created => some ({ r with pc := .ended, mustCancel := false }, [])
  | .executing none => some ({ r.cancelRuntime with pc := .cancelling, mustCancel := false }, [])
  | .executing (some o) => some ({ r with mustCancel := false }.leaveRuntime cfg o exit)
  | .timingOut | .cancelling => some (r.raiseCancelled cfg, [.pop])
  | .syncing _ | .sharedSync | .aborting | .ingesting _ _ => some (r.raiseCancelled cfg, [])
  | .ended => none

/-- The task is resumed at the place it is at. -/
def resumeAt (existing : Option String) (r : Record) : Event → Pc → Option (Record × List Effect)
  | .start missing entry, .created => some (r.start cfg existing missing entry)
  | .synced reply entry, .syncing missing => some (r.synced cfg existing missing entry reply)
  | .sharedSynced reply entry, .sharedSync => some (r.sharedSynced cfg existing entry reply)
  | .aborted entry, .aborting => some (r.isolate cfg entry)
  | .processEnd e _ exit, .executing none =>
    some (r.leaveRuntime cfg (returned (r.runtime.result e)) exit)
  | .runtimeReturned exit, .executing (some o) => some (r.leaveRuntime cfg o exit)
  | .timeout, .executing none =>
    if (timeoutSeconds r.spec).isSome then some ({ r.cancelRuntime with pc := .timingOut }, [])
    else none
  | .cancelReturned raised exit, .timingOut =>
    some (r.cancelReturned cfg (timedOut cfg r.spec) raised exit)
  | .cancelReturned raised exit, .cancelling => some (r.cancelReturned cfg cancelled raised exit)
  | .ingested ing times, .ingesting rt o => some (r.finishExecution cfg rt o ing times)
  | _, _ => none

end Record

/-- One segment of a task. `existing` is the execution whose runtime is registered for the
workload. A runtime that is awaited in a task of its own may return before this task resumes. -/
def taskStep (cfg : Config) (existing : Option String) (r : Record) :
    Event → Option (Record × List Effect)
  | .throwCancelled exit => if r.mustCancel then r.throwCancelled cfg exit else none
  | .processEnd e true _ =>
    if r.pc = .executing none then
      some ({ r with pc := .executing (some (returned (r.runtime.result e))) }, [])
    else none
  | event => if r.mustCancel then none else r.resumeAt cfg existing event r.pc

/-- What a task does when it is resumed. -/
inductive Segment (cfg : Config) (existing : Option String) (r : Record) :
    Record × List Effect → Prop
  | started (missing : Except String (List String)) (entry : Entry) (hpc : r.pc = .created)
      (hm : r.mustCancel = false) : Segment cfg existing r (r.start cfg existing missing entry)
  | synced (missing : List String) (reply : SyncReply) (entry : Entry)
      (hpc : r.pc = .syncing missing) (hm : r.mustCancel = false) :
    Segment cfg existing r (r.synced cfg existing missing entry reply)
  | sharedSynced (reply : SyncReply) (entry : Entry) (hpc : r.pc = .sharedSync)
      (hm : r.mustCancel = false) : Segment cfg existing r (r.sharedSynced cfg existing entry reply)
  | aborted (entry : Entry) (hpc : r.pc = .aborting) (hm : r.mustCancel = false) :
    Segment cfg existing r (r.isolate cfg entry)
  | processed (e : ProcessEnd) (hpc : r.pc = .executing none) :
    Segment cfg existing r ({ r with pc := .executing (some (returned (r.runtime.result e))) }, [])
  | exited (e : ProcessEnd) (exit : Exit) (hpc : r.pc = .executing none)
    (hm : r.mustCancel = false) :
    Segment cfg existing r (r.leaveRuntime cfg (returned (r.runtime.result e)) exit)
  | runtimeReturned (o : Outcome) (exit : Exit) (hpc : r.pc = .executing (some o))
      (hm : r.mustCancel = false) : Segment cfg existing r (r.leaveRuntime cfg o exit)
  | timedOut (hpc : r.pc = .executing none) (hm : r.mustCancel = false) :
    Segment cfg existing r ({ r.cancelRuntime with pc := .timingOut }, [])
  | cancelReturned (o : Outcome) (raised : Option String) (exit : Exit)
      (hpc : r.pc = .timingOut ∨ r.pc = .cancelling) (ho : o.result.success = false)
      (hm : r.mustCancel = false) : Segment cfg existing r (r.cancelReturned cfg o raised exit)
  | ingested (rt : Runtime) (o : Outcome) (ing : Ingestion) (times : Durations)
      (hpc : r.pc = .ingesting rt o) (hm : r.mustCancel = false) :
    Segment cfg existing r (r.finishExecution cfg rt o ing times)
  | thrown (exit : Exit) (p : Record × List Effect) (hm : r.mustCancel = true)
      (hp : r.throwCancelled cfg exit = some p) : Segment cfg existing r p

theorem resumeAt_segment {cfg : Config} {existing : Option String} {r : Record} {event : Event}
    {p : Record × List Effect} (hm : r.mustCancel = false)
    (h : r.resumeAt cfg existing event r.pc = some p) : Segment cfg existing r p := by
  generalize hpc : r.pc = pc at h
  unfold Record.resumeAt at h
  split at h
  · obtain rfl := Option.some.inj h
    exact .started _ _ hpc hm
  · obtain rfl := Option.some.inj h
    exact .synced _ _ _ hpc hm
  · obtain rfl := Option.some.inj h
    exact .sharedSynced _ _ hpc hm
  · obtain rfl := Option.some.inj h
    exact .aborted _ hpc hm
  · obtain rfl := Option.some.inj h
    exact .exited _ _ hpc hm
  · obtain rfl := Option.some.inj h
    exact .runtimeReturned _ _ hpc hm
  · split_ifs at h
    obtain rfl := Option.some.inj h
    exact .timedOut hpc hm
  · obtain rfl := Option.some.inj h
    exact .cancelReturned _ _ _ (.inl hpc) rfl hm
  · obtain rfl := Option.some.inj h
    exact .cancelReturned _ _ _ (.inr hpc) rfl hm
  · obtain rfl := Option.some.inj h
    exact .ingested _ _ _ _ hpc hm
  · cases h

/-- **What a segment of a task can do.** -/
theorem taskStep_segment {cfg : Config} {existing : Option String} {r : Record} {event : Event}
    {p : Record × List Effect} (h : taskStep cfg existing r event = some p) :
    Segment cfg existing r p := by
  unfold taskStep at h
  split at h
  · split_ifs at h with hm
    exact .thrown _ p hm h
  · split_ifs at h with hpc
    obtain rfl := Option.some.inj h
    exact .processed _ hpc
  · split_ifs at h with hm
    exact resumeAt_segment (by simpa using hm) h

/-! ## The worker -/

/-- The ledger, the registered runtimes and the sandboxes, both by workload: each is named by the
execution it belongs to. -/
structure State where
  executions : Dict String Record := ∅
  activeRuntimes : Dict String String := ∅
  sandboxes : Dict String String := ∅

/-- What a poll returns. -/
structure ExecutionStatus where
  attemptId : String
  workloadId : String
  state : ExecutionState
  result : Option WorkloadExecutionResult
  deriving DecidableEq

namespace State

/-- Change the runtime of an execution. -/
def modifyRuntime (s : State) (attemptId : String) (f : Runtime → Runtime) : State :=
  { s with executions := s.executions.modify attemptId fun r => { r with runtime := f r.runtime } }

/-- An effect of a segment of the execution `a` of workload `w`. -/
def applyEffect (a w : String) (s : State) : Effect → State
  | .checkpoint b => s.modifyRuntime b fun rt => { rt with checkpointRequested := true }
  | .removeSandbox => { s with sandboxes := s.sandboxes.erase w }
  | .makeSandbox => { s with sandboxes := s.sandboxes.set w a }
  | .register => { s with activeRuntimes := s.activeRuntimes.set w a }
  | .pop => { s with activeRuntimes := s.activeRuntimes.erase w }

/-- Resume the task of an execution. -/
def resume (cfg : Config) (s : State) (a : String) (event : Event) : Option State :=
  (s.executions.get? a).bind fun r =>
    (taskStep cfg (s.activeRuntimes.get? r.spec.workloadId) r event).map fun (r', effects) =>
      effects.foldl (applyEffect a r.spec.workloadId) { s with executions := s.executions.set a r' }

/-- The status of a record. -/
def executionStatus (a : String) (r : Record) : ExecutionStatus :=
  ⟨a, r.spec.workloadId, r.state, r.result⟩

/-- Drop the terminal records among the expired ones. -/
def pruneStaleExecutions (s : State) (expired : List String) : State :=
  let drop := fun (d : Dict String Record) a =>
    if (d.get? a).any (·.state.isTerminal) then d.erase a else d
  { s with executions := expired.foldl drop s.executions }

/-- Accept an execution, unless there is one with the identifier. -/
def submitExecution (s : State) (a : String) (spec : WorkloadSpec) (contextual : Bool)
    (expired : List String) : State × ExecutionStatus :=
  let s := s.pruneStaleExecutions expired
  match s.executions.get? a with
  | some existing => (s, executionStatus a existing)
  | none =>
    let r : Record := { spec, contextual }
    ({ s with executions := s.executions.set a r }, executionStatus a r)

/-- The status of an execution. -/
def getExecution (s : State) (a : String) : Option ExecutionStatus :=
  (s.executions.get? a).map (executionStatus a)

/-- Cancel the runtime that is registered for a workload. -/
def cancelWorkload (s : State) (w : String) : State × Bool :=
  match s.activeRuntimes.get? w with
  | some b => (s.modifyRuntime b fun rt => { rt with cancelRequested := true }, true)
  | none => (s, false)

/-- Ask the runtime that is registered for a workload to checkpoint. -/
def checkpointWorkload (s : State) (w : String) : State × Bool :=
  match s.activeRuntimes.get? w with
  | some b => (s.modifyRuntime b fun rt => { rt with checkpointRequested := true }, true)
  | none => (s, false)

/-- Cancel an execution: through the runtime of its workload, or else by cancelling its task. -/
def cancelExecution (s : State) (a : String) : State × Option ExecutionStatus :=
  match s.executions.get? a with
  | none => (s, none)
  | some r =>
    if r.state.isTerminal then (s, some (executionStatus a r))
    else
      let s := { s with executions := s.executions.set a { r with cancelRequested := true } }
      let (s, cancelledRuntime) := s.cancelWorkload r.spec.workloadId
      let s := if !cancelledRuntime && r.pc ≠ .ended then
          { s with executions := s.executions.modify a fun r => { r with mustCancel := true } }
        else s
      (s, s.getExecution a)

/-- Acknowledge an execution, which drops its record. -/
def ackExecution (s : State) (a : String) : Except String (State × Bool) :=
  match s.executions.get? a with
  | none => .ok (s, false)
  | some r =>
    if r.state.isTerminal then .ok ({ s with executions := s.executions.erase a }, true)
    else .error "execution is not terminal"

end State

/-- The segments of the tasks, and the requests. -/
inductive Action
  | resume (a : String) (event : Event)
  | submitExecution (a : String) (spec : WorkloadSpec) (contextual : Bool) (expired : List String)
  | getExecution (a : String)
  | cancelExecution (a : String)
  | ackExecution (a : String)
  | cancelWorkload (w : String)
  | checkpointWorkload (w : String)

/-- One step of the worker. -/
def step (cfg : Config) (s : State) : Action → Option State
  | .resume a event => s.resume cfg a event
  | .submitExecution a spec contextual expired =>
    some (s.submitExecution a spec contextual expired).1
  | .getExecution _ => some s
  | .cancelExecution a => some (s.cancelExecution a).1
  | .ackExecution a => some ((s.ackExecution a).toOption.elim s Prod.fst)
  | .cancelWorkload w => some (s.cancelWorkload w).1
  | .checkpointWorkload w => some (s.checkpointWorkload w).1

/-! ## Records -/

/-- The cancelled execution cannot end with a success: it has not started, its runtime was asked to
cancel or has failed, or its task was cancelled. -/
def Record.Doomed (r : Record) : Prop :=
  match r.pc with
  | .created | .timingOut | .cancelling | .ended => True
  | .executing none => r.runtime.cancelRequested = true
  | .executing (some o) => o.result.success = true → r.runtime.checkpointRequested = true
  | .syncing _ | .sharedSync | .aborting | .ingesting _ _ => r.mustCancel = true

/-- A record that keeps its promises: it is terminal exactly when its task has ended, its state says
whether it has succeeded, and if it was cancelled it cannot succeed any more. A task is not
cancelled before its first step or at its runtime. -/
structure Record.Ok (r : Record) : Prop where
  ended : r.pc = .ended → r.state.isTerminal = true
  live : r.pc ≠ .ended → r.state.isTerminal = false ∧ r.result = none
  succeeded : r.state = .succeeded → ∃ result, r.result = some result ∧ result.success = true
  unsuccessful : r.state = .failed ∨ r.state = .cancelled →
    ∀ result, r.result = some result → result.success = false
  thrown : r.mustCancel = true → r.pc ≠ .created ∧ ∀ o, r.pc ≠ .executing o
  doomed : r.cancelRequested = true → r.Doomed

/-- The task of the record goes on: nothing was recorded, and it is not to be cancelled. -/
structure Record.Going (r : Record) : Prop where
  state : r.state.isTerminal = false
  result : r.result = none
  mustCancel : r.mustCancel = false

namespace Record.Ok

variable {cfg : Config} {existing : Option String} {r r' : Record} {effects : List Effect}

theorem going (hr : r.Ok) (hpc : r.pc ≠ .ended) (hm : r.mustCancel = false) : r.Going :=
  ⟨(hr.live hpc).1, (hr.live hpc).2, hm⟩

/-- A live record whose cancellation, if it was requested, is under way. -/
theorem of_live (hst : r.state.isTerminal = false) (hres : r.result = none) (hpc : r.pc ≠ .ended)
    (hm : r.mustCancel = true → r.pc ≠ .created ∧ ∀ o, r.pc ≠ .executing o)
    (hd : r.cancelRequested = true → r.Doomed) : r.Ok := by
  refine ⟨fun h => absurd h hpc, fun _ => ⟨hst, hres⟩, fun h => ?_, fun h => ?_, hm, hd⟩
  · rw [h] at hst
    cases hst
  · rcases h with h | h <;> rw [h] at hst <;> cases hst

theorem new (spec : WorkloadSpec) (contextual : Bool) : Record.Ok { spec, contextual } :=
  of_live rfl rfl nofun nofun nofun

theorem suspend (hr : r.Going) (hc : r.cancelRequested = false) {pc : Pc} (hpc : pc ≠ .ended) :
    Record.Ok { r with pc } := by
  refine of_live hr.state hr.result hpc (fun hm => ?_) fun h => ?_
  · simp [hr.mustCancel] at hm
  · simp [hc] at h

theorem deliver {result : WorkloadExecutionResult}
    (h : r.cancelRequested = true → result.success = false) : (r.deliver result).Ok := by
  unfold Record.deliver
  refine ⟨fun _ => ?_, fun hne => absurd rfl hne, fun hst => ⟨result, rfl, ?_⟩,
    fun hst res hres => ?_, fun _ => ⟨nofun, nofun⟩, fun _ => trivial⟩
  · dsimp only
    split_ifs <;> rfl
  · dsimp only at hst
    split_ifs at hst with hc hs
    exact hs
  · obtain rfl := Option.some.inj hres
    dsimp only at hst
    split_ifs at hst with hc hs
    · exact h hc
    · simp at hst
    · simpa using hs

theorem failWith (message : String) (category : FailureCategory) :
    (r.failWith cfg message category).Ok := by
  unfold Record.failWith
  refine ⟨fun _ => rfl, fun hne => absurd rfl hne, nofun, fun _ res hres => ?_,
    fun _ => ⟨nofun, nofun⟩, fun _ => trivial⟩
  obtain rfl := Option.some.inj hres
  rfl

theorem raise (message : String) : (r.raise cfg message).Ok := failWith message _

theorem raiseCancelled : (r.raiseCancelled cfg).Ok := by
  unfold Record.raiseCancelled
  refine ⟨fun _ => rfl, fun hne => absurd rfl hne, nofun, fun _ res hres => ?_, nofun,
    fun _ => trivial⟩
  obtain rfl := Option.some.inj hres
  rfl

theorem finishExecution {rt : Runtime} {o : Outcome} {ing : Ingestion} {times : Durations}
    (h : r.cancelRequested = true → o.result.success = true → rt.checkpointRequested = true) :
    (r.finishExecution cfg rt o ing times).1.Ok := by
  unfold Record.finishExecution
  split
  · rename_i result hfinish
    refine deliver fun hc => Bool.eq_false_iff.2 fun hs => ?_
    obtain ⟨ho, hcheck⟩ := finish_success hfinish hs
    rw [h hc ho] at hcheck
    cases hcheck
  · exact raise _

theorem leaveRuntime {o : Outcome} {exit : Exit} (hr : r.Going)
    (h : r.cancelRequested = true → o.result.success = true → r.runtime.checkpointRequested =
      true) :
    (r.leaveRuntime cfg o exit).1.Ok := by
  unfold Record.leaveRuntime
  split_ifs with hing
  · -- an execution with outputs to ingest has succeeded so far, so it was not cancelled
    rw [Bool.and_eq_true, ingests, Bool.and_eq_true] at hing
    obtain ⟨ho, hcheck⟩ := checkpointed_success hing.1.1
    refine suspend hr (Bool.eq_false_iff.2 fun hc => ?_) nofun
    rw [h hc ho] at hcheck
    cases hcheck
  · exact finishExecution h

theorem isolate (hr : r.Going) (hc : r.cancelRequested = false) (entry : Entry) :
    (r.isolate cfg entry).1.Ok := by
  unfold Record.isolate
  dsimp only
  split
  · exact deliver fun _ => rfl
  · exact raise _
  · exact deliver fun _ => rfl
  · exact deliver fun _ => rfl
  · exact suspend hr hc nofun

theorem enterManager (hr : r.Going) (hc : r.cancelRequested = false) (entry : Entry) :
    (r.enterManager cfg existing entry).1.Ok := by
  unfold Record.enterManager
  cases existing with
  | none =>
    dsimp only
    split_ifs
    · exact isolate hr hc entry
    · exact raise _
  | some b =>
    dsimp only
    split_ifs
    · exact isolate hr hc entry
    · exact suspend hr hc nofun
    · exact raise _

theorem enterExecute (hr : r.Going) (hc : r.cancelRequested = false) (entry : Entry) :
    (r.enterExecute cfg existing entry).1.Ok := by
  unfold Record.enterExecute
  split_ifs
  · exact enterManager hr hc entry
  · exact suspend hr hc nofun

theorem start (hr : r.Going) (missing : Except String (List String)) (entry : Entry) :
    (r.start cfg existing missing entry).1.Ok := by
  have hgoing : Record.Going { r with state := .running } := ⟨rfl, hr.result, hr.mustCancel⟩
  unfold Record.start
  dsimp only
  split_ifs with hc hinputs
  · refine ⟨fun _ => rfl, fun hne => absurd rfl hne, nofun, fun _ res hres => ?_,
      fun _ => ⟨nofun, nofun⟩, fun _ => trivial⟩
    rw [hr.result] at hres
    cases hres
  · exact enterExecute hgoing (by simpa using hc) entry
  · have hc : r.cancelRequested = false := by simpa using hc
    split
    · exact raise _
    · exact enterExecute hgoing hc entry
    · exact suspend hgoing hc nofun

theorem synced (hr : r.Going) (hc : r.cancelRequested = false) (missing : List String)
    (entry : Entry) (reply : SyncReply) : (r.synced cfg existing missing entry reply).1.Ok := by
  cases reply with
  | results l =>
    unfold Record.synced
    dsimp only
    split_ifs
    · exact enterExecute hr hc entry
    · exact failWith _ _
  | raised message => exact raise message
  | cancelledError => exact raiseCancelled

theorem sharedSynced (hr : r.Going) (hc : r.cancelRequested = false) (entry : Entry)
    (reply : SyncReply) : (r.sharedSynced cfg existing entry reply).1.Ok := by
  cases reply with
  | results l =>
    unfold Record.sharedSynced
    dsimp only
    split
    · exact deliver fun _ => rfl
    · exact enterManager hr hc entry
  | raised message => exact raise message
  | cancelledError => exact raiseCancelled

theorem cancelReturned {o : Outcome} (hr : r.Going) (ho : o.result.success = false)
    (raised : Option String) (exit : Exit) : (r.cancelReturned cfg o raised exit).1.Ok := by
  unfold Record.cancelReturned
  cases raised with
  | none =>
    refine leaveRuntime hr fun _ hs => ?_
    rw [ho] at hs
    cases hs
  | some message => exact raise message

theorem throwCancelled (hr : r.Ok) (hm : r.mustCancel = true) {exit : Exit}
    (h : r.throwCancelled cfg exit = some (r', effects)) : r'.Ok := by
  unfold Record.throwCancelled at h
  obtain ⟨hcreated, hexec⟩ := hr.thrown hm
  split at h
  · rename_i hpc
    exact absurd hpc hcreated
  · rename_i hpc
    exact absurd hpc (hexec none)
  · rename_i o hpc
    exact absurd hpc (hexec (some o))
  · cases h
    exact raiseCancelled
  · cases h
    exact raiseCancelled
  · cases h
    exact raiseCancelled
  · cases h
    exact raiseCancelled
  · cases h
    exact raiseCancelled
  · cases h
    exact raiseCancelled
  · cases h

theorem returned_doomed {rt : Runtime} {e : ProcessEnd} (hc : rt.cancelRequested = true)
    (hs : (returned (rt.result e)).result.success = true) : rt.checkpointRequested = true := by
  cases hres : rt.result e with
  | ok result =>
    rw [hres] at hs
    exact result_cancelled hc hres hs
  | error message =>
    rw [hres] at hs
    cases hs

/-- **Every segment of a task keeps the promises of its record.** -/
theorem segment {p : Record × List Effect} (hr : r.Ok) (h : Segment cfg existing r p) : p.1.Ok := by
  -- a task that is not cancelled at one of these places is not to be cancelled at all
  have hidle : r.mustCancel = false → (r.Doomed → r.mustCancel = true) →
      r.cancelRequested = false := by
    intro hm hd
    refine Bool.eq_false_iff.2 fun hc => ?_
    rw [hd (hr.doomed hc)] at hm
    cases hm
  have hgoing : r.mustCancel = false → ∀ pc, r.pc = pc → pc ≠ .ended → r.Going := by
    rintro hm pc rfl hpc
    exact hr.going hpc hm
  have hreturned : ∀ e, r.pc = .executing none → r.cancelRequested = true →
      (returned (r.runtime.result e)).result.success = true →
      r.runtime.checkpointRequested = true := by
    intro e hpc hc hs
    have hd := hr.doomed hc
    rw [Record.Doomed, hpc] at hd
    exact returned_doomed hd hs
  cases h with
  | started missing entry hpc hm => exact start (hgoing hm _ hpc nofun) missing entry
  | synced missing reply entry hpc hm =>
    refine synced (hgoing hm _ hpc nofun) (hidle hm fun hd => ?_) missing entry reply
    rw [Record.Doomed, hpc] at hd
    exact hd
  | sharedSynced reply entry hpc hm =>
    refine sharedSynced (hgoing hm _ hpc nofun) (hidle hm fun hd => ?_) entry reply
    rw [Record.Doomed, hpc] at hd
    exact hd
  | aborted entry hpc hm =>
    refine isolate (hgoing hm _ hpc nofun) (hidle hm fun hd => ?_) entry
    rw [Record.Doomed, hpc] at hd
    exact hd
  | processed e hpc =>
    have hm : r.mustCancel = false := Bool.eq_false_iff.2 fun hm => (hr.thrown hm).2 none hpc
    have hlive := hgoing hm _ hpc nofun
    refine of_live hlive.state hlive.result nofun (fun hm' => ?_) (hreturned e hpc)
    rw [hm] at hm'
    cases hm'
  | exited e exit hpc hm => exact leaveRuntime (hgoing hm _ hpc nofun) (hreturned e hpc)
  | runtimeReturned o exit hpc hm =>
    refine leaveRuntime (hgoing hm _ hpc nofun) fun hc => ?_
    have hd := hr.doomed hc
    rw [Record.Doomed, hpc] at hd
    exact hd
  | timedOut hpc hm =>
    have hlive := hgoing hm _ hpc nofun
    exact of_live hlive.state hlive.result nofun (fun _ => ⟨nofun, nofun⟩) fun _ => trivial
  | cancelReturned o raised exit hpc ho hm =>
    have hlive : r.Going := by
      rcases hpc with hpc | hpc
      · exact hgoing hm _ hpc nofun
      · exact hgoing hm _ hpc nofun
    exact cancelReturned hlive ho raised exit
  | ingested rt o ing times hpc hm =>
    refine finishExecution fun hc => ?_
    have hd := hr.doomed hc
    rw [Record.Doomed, hpc] at hd
    rw [hd] at hm
    cases hm
  | thrown exit p hm hp => exact hr.throwCancelled hm hp

theorem set_runtime (hr : r.Ok) {rt : Runtime}
    (hcancel : r.runtime.cancelRequested = true → rt.cancelRequested = true)
    (hcheck : r.runtime.checkpointRequested = true → rt.checkpointRequested = true) :
    Record.Ok { r with runtime := rt } := by
  refine ⟨hr.ended, hr.live, hr.succeeded, hr.unsuccessful, hr.thrown, fun hc => ?_⟩
  have hd := hr.doomed hc
  unfold Record.Doomed at hd ⊢
  dsimp only at hd ⊢
  split
  case h_5 hpc =>
    rw [hpc] at hd
    exact hcancel hd
  case h_6 o hpc =>
    rw [hpc] at hd
    exact fun hs => hcheck (hd hs)
  all_goals
    rename_i hpc
    rw [hpc] at hd
    exact hd

end Record.Ok

/-! ## Requests to runtimes -/

/-- The records are as before, but for requests to their runtimes. Only those in `C` are asked to
cancel. -/
def Requests (C : Set String) (s s' : State) : Prop :=
  ∀ b, (s.executions.get? b = none ∧ s'.executions.get? b = none) ∨
    ∃ r rt, s.executions.get? b = some r ∧ s'.executions.get? b = some { r with runtime := rt } ∧
      (r.runtime.cancelRequested = true → rt.cancelRequested = true) ∧
      (r.runtime.checkpointRequested = true → rt.checkpointRequested = true) ∧
      (b ∉ C → rt.cancelRequested = r.runtime.cancelRequested)

variable {cfg : Config} {s s' s₁ : State} {a b w : String} {act : Action} {r r' : Record}
  {as : List Action} {C : Set String}

namespace Requests

theorem of_executions (h : s'.executions.get? = s.executions.get?) : Requests C s s' := by
  intro b
  rw [h]
  cases hb : s.executions.get? b with
  | none => exact .inl ⟨rfl, rfl⟩
  | some r => exact .inr ⟨r, r.runtime, rfl, rfl, id, id, fun _ => rfl⟩

theorem trans (h₁ : Requests C s s₁) (h₂ : Requests C s₁ s') : Requests C s s' := by
  intro b
  rcases h₁ b with ⟨hb, hb₁⟩ | ⟨r, rt, hb, hb₁, hc, hk, hC⟩
  · rcases h₂ b with ⟨-, hb'⟩ | ⟨r, rt, hb', -⟩
    · exact .inl ⟨hb, hb'⟩
    · rw [hb₁] at hb'
      cases hb'
  · rcases h₂ b with ⟨hb', -⟩ | ⟨r₁, rt₁, hb', hb₂, hc₁, hk₁, hC₁⟩
    · rw [hb₁] at hb'
      cases hb'
    · obtain rfl := Option.some.inj (hb₁.symm.trans hb')
      exact .inr ⟨r, rt₁, hb, hb₂, fun h => hc₁ (hc h), fun h => hk₁ (hk h),
        fun h => (hC₁ h).trans (hC h)⟩

theorem modifyRuntime (s : State) (a : String) {f : Runtime → Runtime}
    (hc : ∀ rt, rt.cancelRequested = true → (f rt).cancelRequested = true)
    (hk : ∀ rt, rt.checkpointRequested = true → (f rt).checkpointRequested = true)
    (hC : a ∉ C → ∀ rt, (f rt).cancelRequested = rt.cancelRequested) :
    Requests C s (s.modifyRuntime a f) := by
  intro b
  simp only [State.modifyRuntime, Dict.get?_modify]
  cases hb : s.executions.get? b with
  | none =>
    refine .inl ⟨rfl, ?_⟩
    split_ifs with hab
    · rw [← hab, hb]
      rfl
    · exact rfl
  | some r =>
    refine .inr ?_
    split_ifs with hab
    · subst hab
      rw [hb]
      exact ⟨r, f r.runtime, rfl, rfl, hc r.runtime, hk r.runtime, fun h => hC h r.runtime⟩
    · exact ⟨r, r.runtime, rfl, rfl, id, id, fun _ => rfl⟩

theorem applyEffect (s : State) (a w : String) (e : Effect) :
    Requests C s (State.applyEffect a w s e) := by
  cases e with
  | checkpoint b => exact modifyRuntime s b (fun _ h => h) (fun _ _ => rfl) fun _ _ => rfl
  | _ => exact of_executions rfl

theorem foldl (effects : List Effect) (s : State) (a w : String) :
    Requests C s (effects.foldl (State.applyEffect a w) s) := by
  induction effects generalizing s with
  | nil => exact of_executions rfl
  | cons e effects ih => exact (applyEffect s a w e).trans (ih (State.applyEffect a w s e))

/-- The registered runtime is asked to cancel. -/
theorem requestCancel (s : State) (b : String) (hC : b ∈ C) :
    Requests C s (s.modifyRuntime b fun rt => { rt with cancelRequested := true }) :=
  modifyRuntime s b (fun _ _ => rfl) (fun _ h => h) fun h => absurd hC h

theorem cancelWorkload (s : State) (w : String) : Requests Set.univ s (s.cancelWorkload w).1 := by
  unfold State.cancelWorkload
  split
  · exact requestCancel s _ trivial
  · exact of_executions rfl

theorem checkpointWorkload (s : State) (w : String) : Requests C s (s.checkpointWorkload w).1 := by
  unfold State.checkpointWorkload
  split
  · exact modifyRuntime s _ (fun _ h => h) (fun _ _ => rfl) fun _ _ => rfl
  · exact of_executions rfl

end Requests

/-! ## The ledger -/

/-- Every record keeps its promises. -/
def Inv (s : State) : Prop := ∀ a r, s.executions.get? a = some r → r.Ok

theorem Inv.requests (hs : Inv s) (h : Requests C s s') : Inv s' := by
  intro b r' hb'
  rcases h b with ⟨-, hb⟩ | ⟨r, rt, hb, hb₁, hc, hk, -⟩
  · rw [hb'] at hb
    cases hb
  · obtain rfl := Option.some.inj (hb'.symm.trans hb₁)
    exact (hs b r hb).set_runtime hc hk

theorem Inv.set (hs : Inv s) (hr : r.Ok) (h : s'.executions = s.executions.set a r) : Inv s' := by
  intro b r' hb
  rw [h, Dict.get?_set] at hb
  split_ifs at hb
  · exact Option.some.inj hb ▸ hr
  · exact hs b r' hb

/-- The record after a segment of its task. -/
theorem resume_cases {event : Event} (h : s.resume cfg a event = some s') :
    ∃ r p, s.executions.get? a = some r ∧
      Segment cfg (s.activeRuntimes.get? r.spec.workloadId) r p ∧
      s' = p.2.foldl (State.applyEffect a r.spec.workloadId)
        { s with executions := s.executions.set a p.1 } := by
  unfold State.resume at h
  obtain ⟨r, hr, h⟩ := Option.bind_eq_some_iff.1 h
  obtain ⟨p, hp, rfl⟩ := Option.map_eq_some_iff.1 h
  exact ⟨r, p, hr, taskStep_segment hp, rfl⟩

theorem get?_pruneStaleExecutions (s : State) (expired : List String) (b : String) :
    (s.pruneStaleExecutions expired).executions.get? b = s.executions.get? b ∨
      (s.pruneStaleExecutions expired).executions.get? b = none := by
  unfold State.pruneStaleExecutions
  dsimp only
  generalize s.executions = d
  induction expired generalizing d with
  | nil => exact .inl rfl
  | cons a expired ih =>
    rw [List.foldl_cons]
    split_ifs
    · rcases ih (d.erase a) with h | h
      · rw [h, Dict.get?_erase]
        split_ifs
        · exact .inr rfl
        · exact .inl rfl
      · exact .inr h
    · exact ih d

theorem get?_pruneStaleExecutions_of_notMem (s : State) {expired : List String} (hb : b ∉ expired) :
    (s.pruneStaleExecutions expired).executions.get? b = s.executions.get? b := by
  unfold State.pruneStaleExecutions
  dsimp only
  generalize s.executions = d
  induction expired generalizing d with
  | nil => exact rfl
  | cons a expired ih =>
    have hne : b ≠ a := List.ne_of_not_mem_cons hb
    rw [List.foldl_cons, ih (List.not_mem_of_not_mem_cons hb)]
    split_ifs
    · rw [Dict.get?_erase, if_neg hne]
    · exact rfl

/-- Where the cancellation of execution `a` has to reach its record. The runtime that is registered
for the workload is the one of `a` while it runs. Where the task has no runtime, its own
cancellation is what stops it, but not before its first step: there it reads the flag. What a
runtime has returned cannot be taken back. -/
def CancelReaches (existing : Option String) (a : String) (r : Record) : Prop :=
  match r.pc with
  | .created => existing ≠ none
  | .executing none => existing = some a
  | .executing (some o) => existing ≠ none ∧
    (o.result.success = true → r.runtime.checkpointRequested = true)
  | .timingOut | .cancelling | .ended => True
  | .syncing _ | .sharedSync | .aborting | .ingesting _ _ => existing = none

instance (existing : Option String) (a : String) (r : Record) :
    Decidable (CancelReaches existing a r) := by
  unfold CancelReaches
  split <;> infer_instance

/-- A cancellation reaches the execution that it names. -/
def ReachesExecution (s : State) : Action → Prop
  | .cancelExecution a => ∀ r ∈ s.executions.get? a, r.state.isTerminal = false →
    CancelReaches (s.activeRuntimes.get? r.spec.workloadId) a r
  | _ => True

instance (s : State) (act : Action) : Decidable (ReachesExecution s act) := by
  unfold ReachesExecution
  split <;> infer_instance

theorem cancelWorkload_some (h : s.activeRuntimes.get? w = some b) : s.cancelWorkload w =
    (s.modifyRuntime b fun rt => { rt with cancelRequested := true }, true) := by
  simp [State.cancelWorkload, h]

theorem cancelWorkload_none (h : s.activeRuntimes.get? w = none) :
    s.cancelWorkload w = (s, false) := by
  simp [State.cancelWorkload, h]

/-- What a cancellation does. -/
theorem cancelExecution_cases (s : State) (a : String) : (s.cancelExecution a).1 = s ∨
    ∃ r, s.executions.get? a = some r ∧ r.state.isTerminal = false ∧
      ((∃ b, s.activeRuntimes.get? r.spec.workloadId = some b ∧ (s.cancelExecution a).1 =
          State.modifyRuntime
            { s with executions := s.executions.set a { r with cancelRequested := true } } b
            fun rt => { rt with cancelRequested := true }) ∨
        (s.activeRuntimes.get? r.spec.workloadId = none ∧ (s.cancelExecution a).1.executions.get? =
          (s.executions.set a { r with
            cancelRequested := true, mustCancel := r.pc ≠ .ended || r.mustCancel }).get?)) := by
  unfold State.cancelExecution
  cases hr : s.executions.get? a with
  | none => exact .inl rfl
  | some r =>
    dsimp only
    cases hterminal : r.state.isTerminal with
    | true => exact .inl rfl
    | false =>
      refine .inr ⟨r, rfl, hterminal, ?_⟩
      simp only [Bool.false_eq_true, if_false]
      generalize hs₁ : { s with
        executions := s.executions.set a { r with cancelRequested := true } } = s₁
      have hactive : s₁.activeRuntimes = s.activeRuntimes := hs₁ ▸ rfl
      cases hb : s.activeRuntimes.get? r.spec.workloadId with
      | some b =>
        rw [cancelWorkload_some (hactive ▸ hb)]
        exact .inl ⟨b, rfl, rfl⟩
      | none =>
        rw [cancelWorkload_none (hactive ▸ hb), ← hs₁]
        refine .inr ⟨rfl, ?_⟩
        funext b
        by_cases hpc : r.pc = .ended
        · simp [hpc]
        · simp only [Dict.get?_set]
          split_ifs <;> simp_all [Dict.get?_set, Dict.get?_modify]

theorem Record.Ok.requestCancel (hr : r.Ok) (hd : r.Doomed) :
    Record.Ok { r with cancelRequested := true } :=
  ⟨hr.ended, hr.live, hr.succeeded, hr.unsuccessful, hr.thrown, fun _ => hd⟩

theorem Record.Ok.cancelTask (hr : r.Ok) (hpc : r.pc ≠ .created ∧ ∀ o, r.pc ≠ .executing o)
    {m : Bool} (hm : r.pc ≠ .ended → m = true) :
    Record.Ok { r with cancelRequested := true, mustCancel := m } := by
  refine ⟨hr.ended, hr.live, hr.succeeded, hr.unsuccessful, fun _ => hpc, fun _ => ?_⟩
  unfold Record.Doomed
  dsimp only
  split
  case h_5 h => exact absurd h (hpc.2 none)
  case h_6 o h => exact absurd h (hpc.2 (some o))
  case h_1 | h_2 | h_3 | h_4 => trivial
  all_goals
    rename_i h
    exact hm (by rw [h]; nofun)

theorem Inv.cancelExecution (hs : Inv s) (h : ReachesExecution s (.cancelExecution a)) :
    Inv (s.cancelExecution a).1 := by
  rcases cancelExecution_cases s a with h₁ | ⟨r, hr, hlive, ⟨b, hb, h₁⟩ | ⟨hb, h₁⟩⟩
  · rw [h₁]
    exact hs
  · have hreach := h r hr hlive
    have hok := hs a r hr
    rw [hb] at hreach
    by_cases hab : b = a
    · -- the runtime is the one of the execution: the flag and the request come together
      subst hab
      have hcancelled : Record.Ok { r.cancelRuntime with cancelRequested := true } := by
        have hset : r.cancelRuntime.Ok := hok.set_runtime (fun _ => rfl) id
        refine hset.requestCancel ?_
        unfold CancelReaches at hreach
        unfold Record.Doomed Record.cancelRuntime
        dsimp only
        split <;> simp_all
      intro c r' hc
      rw [h₁, State.modifyRuntime, Dict.get?_modify] at hc
      simp only [Dict.get?_set, if_true] at hc
      split_ifs at hc
      · exact Option.some.inj hc ▸ hcancelled
      · exact hs c r' hc
    · have hset : Inv { s with
          executions := s.executions.set a { r with cancelRequested := true } } := by
        refine hs.set (hok.requestCancel ?_) rfl
        unfold CancelReaches at hreach
        unfold Record.Doomed
        split <;> simp_all
      rw [h₁]
      exact hset.requests (Requests.requestCancel _ b (Set.mem_univ b))
  · have hreach := h r hr hlive
    rw [hb] at hreach
    have hcancelled := (hs a r hr).cancelTask (m := r.pc ≠ .ended || r.mustCancel)
      (by unfold CancelReaches at hreach; split at hreach <;> simp_all) (by simp +contextual)
    intro c r' hc
    rw [h₁, Dict.get?_set] at hc
    split_ifs at hc
    · exact Option.some.inj hc ▸ hcancelled
    · exact hs c r' hc

theorem Inv.submitExecution (hs : Inv s) (spec : WorkloadSpec) (contextual : Bool)
    (expired : List String) : Inv (s.submitExecution a spec contextual expired).1 := by
  have hpruned : Inv (s.pruneStaleExecutions expired) := by
    intro b r hb
    rcases get?_pruneStaleExecutions s expired b with h | h
    · exact hs b r (h ▸ hb)
    · rw [h] at hb
      cases hb
  unfold State.submitExecution
  dsimp only
  split
  · exact hpruned
  · exact hpruned.set (.new spec contextual) rfl

theorem Inv.ackExecution (hs : Inv s) (a : String) :
    Inv ((s.ackExecution a).toOption.elim s Prod.fst) := by
  unfold State.ackExecution
  split
  · exact hs
  · split_ifs
    · intro b r hb
      have hb : (s.executions.erase a).get? b = some r := hb
      rw [Dict.get?_erase] at hb
      split_ifs at hb
      exact hs b r hb
    · exact hs

/-- **Every step keeps the promises of every record**, if it reaches its execution. -/
theorem Inv.step (hs : Inv s) (hreach : ReachesExecution s act)
    (h : Worker.step cfg s act = some s') : Inv s' := by
  cases act with
  | resume a event =>
    obtain ⟨r, p, hr, hseg, rfl⟩ := resume_cases h
    have hset : Inv { s with executions := s.executions.set a p.1 } :=
      hs.set ((hs a r hr).segment hseg) rfl
    exact hset.requests (C := ∅) (Requests.foldl p.2 _ a r.spec.workloadId)
  | submitExecution a spec contextual expired =>
    exact Option.some.inj h ▸ hs.submitExecution spec contextual expired
  | getExecution a => exact Option.some.inj h ▸ hs
  | cancelExecution a => exact Option.some.inj h ▸ hs.cancelExecution hreach
  | ackExecution a => exact Option.some.inj h ▸ hs.ackExecution a
  | cancelWorkload w => exact Option.some.inj h ▸ hs.requests (.cancelWorkload s w)
  | checkpointWorkload w => exact Option.some.inj h ▸ hs.requests (C := ∅) (.checkpointWorkload s w)

/-! ## Terminal records -/

/-- The step drops the record: it is acknowledged, or it has expired when an execution is
submitted. -/
def Action.drops (a : String) : Action → Prop
  | .ackExecution b => b = a
  | .submitExecution _ _ _ expired => a ∈ expired
  | _ => False

/-- Every terminal record keeps its state and its result, until it is dropped. -/
def KeepsTerminal (s : State) (act : Action) (s' : State) : Prop :=
  ∀ a r, s.executions.get? a = some r → r.state.isTerminal = true → act.drops a ∨
    ∃ r', s'.executions.get? a = some r' ∧ r'.state = r.state ∧ r'.result = r.result

theorem KeepsTerminal.of_requests (h : Requests C s s') : KeepsTerminal s act s' := by
  intro a r hr hterminal
  rcases h a with ⟨hnone, -⟩ | ⟨r₁, rt, hr₁, hr', -⟩
  · rw [hr] at hnone
    cases hnone
  · obtain rfl := Option.some.inj (hr.symm.trans hr₁)
    exact .inr ⟨_, hr', rfl, rfl⟩

/-- A record that is not terminal is changed, and then there are requests to runtimes. -/
theorem KeepsTerminal.of_set (hr : s.executions.get? a = some r)
    (hlive : r.state.isTerminal = false)
    (h : Requests C { s with executions := s.executions.set a r' } s') :
      KeepsTerminal s act s' := by
  intro b r₁ hb hterminal
  have hne : b ≠ a := by
    rintro rfl
    obtain rfl := Option.some.inj (hr.symm.trans hb)
    rw [hlive] at hterminal
    cases hterminal
  have hb' : (s.executions.set a r').get? b = some r₁ := by
    rw [Dict.get?_set, if_neg hne]
    exact hb
  exact KeepsTerminal.of_requests h b r₁ hb' hterminal

theorem Segment.live {existing : Option String} {p : Record × List Effect} (hr : r.Ok)
    (h : Segment cfg existing r p) : r.state.isTerminal = false := by
  have hpc : r.pc ≠ .ended := by
    intro hended
    cases h with
    | cancelReturned o raised exit hpc => rcases hpc with hpc | hpc <;> simp [hended] at hpc
    | thrown exit p hm hp => simp [Record.throwCancelled, hended] at hp
    | _ => simp_all
  exact (hr.live hpc).1

theorem KeepsTerminal.submitExecution (s : State) (a : String) (spec : WorkloadSpec)
    (contextual : Bool) (expired : List String) :
    KeepsTerminal s (.submitExecution a spec contextual expired)
      (s.submitExecution a spec contextual expired).1 := by
  intro b r hb hterminal
  by_cases hexpired : b ∈ expired
  · exact .inl hexpired
  · have hpruned : (s.pruneStaleExecutions expired).executions.get? b = some r := by
      rw [get?_pruneStaleExecutions_of_notMem s hexpired, hb]
    refine .inr ⟨r, ?_, rfl, rfl⟩
    unfold State.submitExecution
    dsimp only
    split
    · exact hpruned
    · rename_i hnone
      rw [Dict.get?_set, if_neg, hpruned]
      rintro rfl
      rw [hpruned] at hnone
      cases hnone

theorem KeepsTerminal.ackExecution (s : State) (a : String) :
    KeepsTerminal s (.ackExecution a) ((s.ackExecution a).toOption.elim s Prod.fst) := by
  intro b r hb hterminal
  by_cases hab : a = b
  · exact .inl hab
  · refine .inr ⟨r, ?_, rfl, rfl⟩
    unfold State.ackExecution
    split
    · exact hb
    · split_ifs
      · exact (Dict.get?_erase s.executions a b).trans ((if_neg (Ne.symm hab)).trans hb)
      · exact hb

/-- **Every step keeps the state and the result of every terminal record.** -/
theorem KeepsTerminal.of_step (hs : Inv s) (h : step cfg s act = some s') :
    KeepsTerminal s act s' := by
  cases act with
  | resume a event =>
    obtain ⟨r, p, hr, hseg, rfl⟩ := resume_cases h
    exact .of_set hr (hseg.live (hs a r hr)) (C := ∅) (Requests.foldl p.2 _ a r.spec.workloadId)
  | submitExecution a spec contextual expired =>
    exact Option.some.inj h ▸ .submitExecution s a spec contextual expired
  | getExecution a => exact Option.some.inj h ▸ .of_requests (C := ∅) (.of_executions rfl)
  | cancelExecution a =>
    obtain rfl := Option.some.inj h
    rcases cancelExecution_cases s a with h₁ | ⟨r, hr, hlive, ⟨b, hb, h₁⟩ | ⟨hb, h₁⟩⟩
    · rw [h₁]
      exact .of_requests (C := ∅) (.of_executions rfl)
    · rw [h₁]
      exact .of_set hr hlive (.requestCancel _ b (Set.mem_univ b))
    · exact .of_set hr hlive (C := ∅) (.of_executions h₁)
  | ackExecution a => exact Option.some.inj h ▸ .ackExecution s a
  | cancelWorkload w => exact Option.some.inj h ▸ .of_requests (.cancelWorkload s w)
  | checkpointWorkload w =>
    exact Option.some.inj h ▸ .of_requests (C := ∅) (.checkpointWorkload s w)

/-- What the coordinator can rely on when it polls: an execution whose task has ended is terminal,
and its state says whether it has succeeded. -/
def Settled (s : State) : Prop :=
  ∀ a r, s.executions.get? a = some r →
    (r.pc = .ended → r.state.isTerminal = true) ∧
    (r.state = .succeeded → ∃ result, r.result = some result ∧ result.success = true) ∧
    (r.state = .failed ∨ r.state = .cancelled →
      ∀ result, r.result = some result → result.success = false)

/-- **The ledger can be relied on** along every run whose cancellations reach their executions: each
state is settled, and each step keeps the state and the result of every terminal record. -/
theorem execution_ledger (h : Along (step cfg) ReachesExecution {} as) :
    (∀ s, runFrom (step cfg) {} as = some s → Settled s) ∧
      Along (step cfg) (fun s act => ∀ s', step cfg s act = some s' → KeepsTerminal s act s')
        {} as := by
  have hinit : Inv {} := by
    intro a r hr
    rw [Dict.get?_empty] at hr
    cases hr
  constructor
  · intro s hrun a r hr
    have hs : Inv s := h.invariant (fun s a s' hs hreach => hs.step hreach) hinit hrun
    exact ⟨(hs a r hr).ended, (hs a r hr).succeeded, (hs a r hr).unsuccessful⟩
  · refine h.imp (fun s a s' hs hreach => hs.step hreach)
      (fun s act s' hs _ hstep s₁ h₁ => ?_) hinit
    exact .of_step hs h₁

/-- A worker. -/
def sampleWorkerConfig : Config where
  workerId := "worker"
  floatRepr _ := "1.0"

/-- A workload without inputs. -/
def sampleExecution (a : String) : Action :=
  .submitExecution a { workloadId := "w", taskType := "render" } false []

/-- An execution is accepted, its runtime is started, and it is cancelled before its process ends.
-/
def cancelledSample : List Action :=
  [sampleExecution "a", .resume "a" (.start (.ok []) {}), .cancelExecution "a",
    .resume "a" (.processEnd (.exited 0 "" "") false {}), .getExecution "a"]

theorem execution_ledger_sample :
    Along (step sampleWorkerConfig) ReachesExecution {} cancelledSample ∧
      (∀ s, runFrom (step sampleWorkerConfig) {} cancelledSample = some s → Settled s) ∧
      Along (step sampleWorkerConfig) (fun s act => ∀ s',
        step sampleWorkerConfig s act = some s' → KeepsTerminal s act s') {} cancelledSample := by
  have h : Along (step sampleWorkerConfig) ReachesExecution {} cancelledSample := by
    decide +kernel
  exact ⟨h, execution_ledger h⟩

/-- An execution that is cancelled before the first step of its task never becomes terminal: the
task ends, and the record stays accepted. -/
theorem accepted_after_cancel :
    ¬ ∀ as : List Action, Along (step sampleWorkerConfig) (fun _ _ => True) {} as →
      (∀ s, runFrom (step sampleWorkerConfig) {} as = some s → Settled s) ∧
        Along (step sampleWorkerConfig) (fun s act => ∀ s',
          step sampleWorkerConfig s act = some s' → KeepsTerminal s act s') {} as := by
  intro hclaim
  have hrun : (runFrom (step sampleWorkerConfig) {}
      [sampleExecution "a", .cancelExecution "a", .resume "a" (.throwCancelled {})]).bind (fun s =>
        (s.executions.get? "a").map fun r => (r.pc, r.state)) = some (.ended, .accepted) := by
    decide +kernel
  obtain ⟨s, hs, hr⟩ := Option.bind_eq_some_iff.1 hrun
  obtain ⟨r, hr, hv⟩ := Option.map_eq_some_iff.1 hr
  obtain ⟨hpc, hst⟩ := Prod.mk.inj hv
  have hterminal := ((hclaim _ (along_of_run hs)).1 s hs "a" r hr).1 hpc
  rw [hst] at hterminal
  cases hterminal

end Aidars.Worker
