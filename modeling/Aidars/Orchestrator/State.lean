import Aidars.Models.Job
import Aidars.Placement.Basic
import Aidars.Registry.Basic
import Aidars.Store.Rows

/-!
# The state of the orchestrator

`State` is what the coroutines of the orchestrator share: the registries, the admission queue, and
the coroutines themselves, each suspended at one of its `await`s. A run of `_process_workload` is a
program counter `Pc` with the local variables it carries; there is one for each workload in
`processing`. A dispatch holds one `Call` of `_submit_and_await` for each worker it talks to.

The operations of the workload registry are functions on the state: each writes one record.
-/

namespace Aidars.Orchestrator

/-- What the coordinator is configured with. `floatRepr` writes a float, `endpointError` is the
message with which an endpoint fails to parse, and `sameNan` says of which specifications the NaNs
are the same objects. -/
structure Config where
  registry : RegistryConfig
  text : TextFunctions
  floatRepr : PyFloat → String
  endpointError : String → Option String
  maxAttempts : ℕ
  maxDispatchTasks : ℕ
  stateStore : Bool := true
  sameNan : WorkloadSpec → WorkloadSpec → Bool := fun _ _ => false

/-- The equality `==` of specifications. A NaN is equal to none but itself. -/
def Config.sameSpec (cfg : Config) (a b : WorkloadSpec) : Bool :=
  a.normal true = b.normal (cfg.sameNan a b)

/-! ## Calls -/

/-- How a call of `_submit_and_await` ends. -/
inductive CallReply
  | result (r : WorkloadExecutionResult)
  | submitUnavailable (message : String)
  | recordLost (message : String)
  | otherException (message : String)
  deriving DecidableEq

/-- Where a call is suspended: at the submission, at a poll, between two polls, at the
acknowledgement or remote cancellation before it returns; or it has ended. -/
inductive Phase
  | submitting
  | polling
  | sleeping
  | closing (r : WorkloadExecutionResult)
  | answered (reply : CallReply)
  deriving DecidableEq

/-- A call to a worker. -/
structure Call where
  attemptId : String
  workerId : String
  phase : Phase := .submitting
  deriving DecidableEq

/-- The reply of a call that has ended. -/
def Call.reply? (c : Call) : Option CallReply :=
  match c.phase with
  | .answered reply => some reply
  | _ => none

/-! ## Runs -/

/-- The local variables of a run that live across attempts. `attemptsUsed` counts the attempt that
is about to be made or is being made. -/
structure Frame where
  spec : WorkloadSpec
  executionShape : ExecutionShape
  requiredWorkerCount : ℕ
  parentJob : Option String
  jobSelectedIds : Option (PySet String)
  exhaustedWorkerIds : PySet String
  attemptsUsed : ℕ
  deriving DecidableEq

/-- The local variables of one attempt. `raised` is the message of an error raised before any
request was sent. -/
structure Dispatch where
  attemptId : String
  decision : PlacementDecision
  executionGroup : Option ExecutionGroup
  calls : List Call
  raised : Option String := none
  deriving DecidableEq

/-- The workers of an attempt. -/
def selectedIds (decision : PlacementDecision) (group : Option ExecutionGroup) : List String :=
  match group with
  | some g => g.workerIds
  | none => [decision.selectedWorkerId]

/-- The workers of a dispatch. -/
def Dispatch.workerIds (d : Dispatch) : List String := selectedIds d.decision d.executionGroup

/-- The answer of a dispatch. A result comes with the group members that were unavailable, and those
of them whose call raised. -/
inductive Reply
  | result (r : WorkloadExecutionResult) (unavailable transport : PySet String)
  | submitUnavailable (message : String)
  | recordLost (message : String)
  | otherException (message : String)
  deriving DecidableEq

/-- Where a run of `_process_workload` is suspended: before its first step, at the placement lock,
at the dispatch, at the event of a group drain; or it has returned and waits before it leaves the
queue. -/
inductive Pc
  | start
  | lockWait (f : Frame)
  | dispatch (f : Frame) (d : Dispatch)
  | drainWait (f : Frame) (d : Dispatch) (r : WorkloadExecutionResult) (transport : PySet String)
  | finishing
  deriving DecidableEq

/-! ## The shared state -/

/-- The state shared by the coroutines. `cancels` are the calls of `cancel_workload` that wait for a
worker, `steals` and `clones` the tasks of work stealing, and `drains` the group attempts of each
`drain_worker` that waits for its checkpoint requests. -/
structure State where
  workloads : Dict String WorkloadRecord := ∅
  attempts : AttemptRegistry := {}
  registry : WorkerRegistry := {}
  jobs : Dict String JobRecord := ∅
  queued : PySet String := ∅
  processing : PySet String := ∅
  runs : Dict String Pc := ∅
  drainEvents : Dict String Bool := ∅
  cancels : List String := []
  steals : List (String × String) := []
  clones : List (String × String) := []
  drains : List (List String) := []

namespace State

/-- The state of a workload. -/
def stateOf (s : State) (w : String) : Option WorkloadState := (s.workloads.get? w).map (·.state)

/-- The state and the stored result of a workload. -/
def outcomeOf (s : State) (w : String) :
    Option (WorkloadState × Option WorkloadExecutionResult) :=
  (s.workloads.get? w).map fun r => (r.state, r.executionResult)

/-- The workload is registered, and its cancellation was requested or is done. -/
def isCancelled (s : State) (w : String) : Bool := (s.stateOf w).any (·.isCancelled)

/-- The attempt is lost. -/
def isLost (s : State) (attemptId : String) : Bool :=
  (s.attempts.getAttempt attemptId).any (·.status = .lost)

/-- Change the record of a workload. -/
def modifyWorkload (s : State) (w : String) (f : WorkloadRecord → WorkloadRecord) : State :=
  { s with workloads := s.workloads.modify w f }

/-- Suspend the run of a workload. -/
def setPc (s : State) (w : String) (pc : Pc) : State := { s with runs := s.runs.set w pc }

/-! ## The workload registry -/

/-- Write the state of a workload, and an error message if one is given. -/
def updateState (s : State) (w : String) (st : WorkloadState)
    (errorMessage : Option String := none) : State :=
  s.modifyWorkload w fun r =>
    { r with state := st, errorMessage := errorMessage <|> r.errorMessage }

/-- Write the placement of a workload; a decision clears the error message. -/
def setPlacement (s : State) (w : String) (decision : Option PlacementDecision) : State :=
  s.modifyWorkload w fun r =>
    { r with
      placementDecision := decision
      errorMessage := if decision.isSome then none else r.errorMessage }

/-- Write the result of a workload, and the state that goes with it. -/
def setResult (s : State) (w : String) (result : WorkloadExecutionResult) : State :=
  s.modifyWorkload w fun r =>
    { r with
      executionResult := some result
      state := if result.success then .completed else .failed }

/-- Replace the specification of a workload. -/
def updateSpec (s : State) (spec : WorkloadSpec) : State :=
  s.modifyWorkload spec.workloadId fun r => { r with spec }

/-- Register a workload. An equal resubmission changes nothing, a conflicting one is rejected. -/
def addWorkload (cfg : Config) (s : State) (spec : WorkloadSpec) : Option State :=
  match s.workloads.get? spec.workloadId with
  | some existing => if cfg.sameSpec existing.spec spec then some s else none
  | none => some { s with workloads := s.workloads.set spec.workloadId { spec } }

/-! ## The admission queue -/

/-- Queue a workload for admission. -/
def enqueueWorkload (s : State) (w : String) : State :=
  if w ∈ s.processing then s
  else match s.stateOf w with
    | none | some .completed | some .failed | some .timeout | some .unschedulable => s
    | some _ => { s with queued := s.queued.insert w }

/-- The end of `_run_queued_workload`: a workload that is waiting again is queued and keeps its
place for a while. -/
def returnRun (s : State) (w : String) : State :=
  if s.stateOf w = some .submitted then
    { s with queued := s.queued.insert w, runs := s.runs.set w .finishing }
  else { s with processing := s.processing.erase w, runs := s.runs.erase w }

/-- A workload whose dependencies are met, not met yet, or never will be. -/
inductive DependencyState
  | ready
  | waiting
  | failed
  deriving DecidableEq

/-- States of a dependency that fail the workloads that depend on it. -/
def dependencyFailed (st : WorkloadState) : Bool :=
  [WorkloadState.failed, .unschedulable, .timeout, .cancelled, .cancellationRequested].contains st

/-- Examine dependencies in order; a failed one fails the workload. -/
def dependencyState (s : State) (w : String) : List String → State × DependencyState
  | [] => (s, .ready)
  | dep :: deps =>
    match s.stateOf dep with
    | none => (s, .waiting)
    | some st =>
      if dependencyFailed st then
        (s.updateState w .failed (some ("Dependency " ++ dep ++
          " did not complete successfully (state=" ++ st.value ++ ")")), .failed)
      else if st ≠ .completed then (s, .waiting)
      else dependencyState s w deps

/-- Add the outputs of the dependencies to the inputs of a stage; none when a dependency has no
successful result. -/
def specWithDependencyOutputs (s : State) (spec : WorkloadSpec) : List String → Option WorkloadSpec
  | [] => some spec
  | dep :: deps =>
    match s.workloads.get? dep with
    | none => none
    | some r =>
      match r.state, r.executionResult with
      | .completed, some result =>
        if result.success then
          specWithDependencyOutputs s { spec with
            inputAssetHashes := spec.inputAssetHashes ∪ result.outputAssetHashes } deps
        else none
      | _, _ => none

end State

end Aidars.Orchestrator
