import Aidars.Models.Workload

/-!
# Execution attempts

One `AttemptRecord` is one execution of a workload on a worker or on a group of workers. The
`AttemptRegistry` files the attempts by identifier (`makeAttemptId`) and lists them by workload, in
creation order. The five `mark` operations write the status of an attempt without looking at the
status it has. Timestamps are left out.
-/

namespace Aidars

/-- Lifecycle status of an attempt. -/
inductive AttemptStatus
  | queued
  | assigned
  | running
  | succeeded
  | failed
  | lost
  deriving DecidableEq, Repr

/-- Statuses that mean that an attempt is done trying. -/
def TERMINAL_ATTEMPT_STATUSES : List AttemptStatus := [.succeeded, .failed, .lost]

namespace AttemptStatus

/-- A terminal status. -/
def isTerminal (st : AttemptStatus) : Bool := TERMINAL_ATTEMPT_STATUSES.contains st

/-- The attempt occupies its workers. -/
def isActive (st : AttemptStatus) : Bool := st = .assigned || st = .running

end AttemptStatus

/-- Lifecycle of an execution group. -/
inductive GroupState
  | assigned
  | running
  | completed
  | failed
  | lost
  deriving DecidableEq, Repr

/-- Membership and lifecycle of a distributed attempt. -/
structure ExecutionGroup where
  executionId : String
  workerIds : List String
  requiredWorkerCount : ℕ
  state : GroupState := .assigned
  unavailableWorkerIds : PySet String := ∅
  placementDecisions : List PlacementDecision := []
  deriving DecidableEq

/-- One execution attempt of a workload. -/
structure AttemptRecord where
  attemptId : String
  workloadId : String
  attemptNumber : ℕ
  status : AttemptStatus := .queued
  workerId : Option String := none
  failureCategory : Option FailureCategory := none
  failureReason : Option String := none
  executionResult : Option WorkloadExecutionResult := none
  placementDecision : Option PlacementDecision := none
  executionGroup : Option ExecutionGroup := none
  checkpointHash : Option String := none
  checkpointRuntimeType : Option String := none
  checkpointFormatVersion : Option ℤ := none
  deriving DecidableEq

namespace AttemptRecord

/-- The attempt names the worker, as its own or as a member of its group. -/
def names (r : AttemptRecord) (workerId : String) : Bool :=
  r.workerId = some workerId || r.executionGroup.any fun g => g.workerIds.contains workerId

/-- The attempt is active and names the worker. -/
def occupies (workerId : String) (r : AttemptRecord) : Bool := r.status.isActive && r.names workerId

/-- The attempt counts against the retry budget: all do but checkpointed successes. -/
def counted (r : AttemptRecord) : Bool :=
  !(r.status = .succeeded && r.executionResult.any (·.wasCheckpointed))

end AttemptRecord

/-- The identifier of an attempt. -/
def makeAttemptId (workloadId : String) (attemptNumber : ℕ) : String :=
  workloadId ++ "#" ++ toString attemptNumber

/-- Registry of attempts. -/
structure AttemptRegistry where
  attempts : Dict String AttemptRecord := ∅
  byWorkload : Dict String (List String) := ∅
  deriving DecidableEq

namespace AttemptRegistry

/-- The identifiers of a workload's attempts, in creation order. -/
def idsOf (reg : AttemptRegistry) (workloadId : String) : List String :=
  (reg.byWorkload.get? workloadId).getD []

/-- The identifier that the next attempt of a workload gets. -/
def nextId (reg : AttemptRegistry) (workloadId : String) : String :=
  makeAttemptId workloadId ((reg.idsOf workloadId).length + 1)

/-- The record of the next attempt of a workload. -/
def newAttempt (reg : AttemptRegistry) (workloadId : String)
    (placementDecision : Option PlacementDecision) (executionGroup : Option ExecutionGroup) :
    AttemptRecord :=
  { attemptId := reg.nextId workloadId
    workloadId
    attemptNumber := (reg.idsOf workloadId).length + 1
    placementDecision
    executionGroup }

/-- Create the next attempt of a workload. -/
def createAttempt (reg : AttemptRegistry) (workloadId : String)
    (placementDecision : Option PlacementDecision) (executionGroup : Option ExecutionGroup) :
    AttemptRegistry :=
  { attempts := reg.attempts.set (reg.nextId workloadId)
      (reg.newAttempt workloadId placementDecision executionGroup)
    byWorkload := reg.byWorkload.set workloadId (reg.idsOf workloadId ++ [reg.nextId workloadId]) }

/-- An attempt by its identifier. -/
def getAttempt (reg : AttemptRegistry) (attemptId : String) : Option AttemptRecord :=
  reg.attempts.get? attemptId

/-- The attempts of a workload, in creation order. -/
def listAttemptsForWorkload (reg : AttemptRegistry) (workloadId : String) : List AttemptRecord :=
  (reg.idsOf workloadId).filterMap reg.attempts.get?

/-- The latest attempt of a workload. -/
def getLatestAttempt (reg : AttemptRegistry) (workloadId : String) : Option AttemptRecord :=
  (reg.listAttemptsForWorkload workloadId).getLast?

/-- Change an attempt, if there is one with the identifier. -/
def update (reg : AttemptRegistry) (attemptId : String) (mutator : AttemptRecord → AttemptRecord) :
    AttemptRegistry :=
  { reg with attempts := reg.attempts.modify attemptId mutator }

/-- Write the state of an attempt's group, if it has one. -/
def setGroupState (st : GroupState) (g : Option ExecutionGroup) : Option ExecutionGroup :=
  g.map fun g => { g with state := st }

/-- Mark an attempt assigned to a worker. -/
def markAssigned (reg : AttemptRegistry) (attemptId workerId : String) : AttemptRegistry :=
  reg.update attemptId fun r => { r with status := .assigned, workerId := some workerId }

/-- Mark an attempt running. -/
def markRunning (reg : AttemptRegistry) (attemptId : String) : AttemptRegistry :=
  reg.update attemptId fun r =>
    { r with status := .running, executionGroup := setGroupState .running r.executionGroup }

/-- Mark an attempt succeeded; the metadata of a checkpoint is copied from the result. -/
def markSucceeded (reg : AttemptRegistry) (attemptId : String) (result : WorkloadExecutionResult) :
    AttemptRegistry :=
  let checkpointed := result.wasCheckpointed && result.checkpointHash.any (· ≠ "")
  reg.update attemptId fun r => { r with
    status := .succeeded
    executionResult := some result
    executionGroup := setGroupState .completed r.executionGroup
    checkpointHash := if checkpointed then result.checkpointHash else r.checkpointHash
    checkpointRuntimeType :=
      if checkpointed then result.checkpointRuntimeType else r.checkpointRuntimeType
    checkpointFormatVersion :=
      if checkpointed then result.checkpointFormatVersion else r.checkpointFormatVersion }

/-- Mark an attempt failed. -/
def markFailed (reg : AttemptRegistry) (attemptId : String)
    (failureCategory : Option FailureCategory) (failureReason : Option String)
    (result : Option WorkloadExecutionResult := none) : AttemptRegistry :=
  reg.update attemptId fun r => { r with
    status := .failed
    failureCategory
    failureReason
    executionGroup := setGroupState .failed r.executionGroup
    executionResult := result <|> r.executionResult }

/-- Mark an attempt lost, and the listed members of its group unavailable. -/
def markLost (reg : AttemptRegistry) (attemptId : String) (reason : Option String)
    (unavailableWorkerIds : List String) : AttemptRegistry :=
  reg.update attemptId fun r => { r with
    status := .lost
    failureCategory := some .workerUnavailable
    failureReason := reason
    executionGroup := r.executionGroup.map fun g => { g with
      state := .lost
      unavailableWorkerIds := unavailableWorkerIds.foldl PySet.insert g.unavailableWorkerIds } }

/-- The active attempts that name a worker. -/
def listRunningAttemptsForWorker (reg : AttemptRegistry) (workerId : String) : List AttemptRecord :=
  reg.attempts.values.filter (AttemptRecord.occupies workerId)

/-- The number of attempts of a workload that count against its retry budget. -/
def attemptsUsed (reg : AttemptRegistry) (workloadId : String) : ℕ :=
  (reg.listAttemptsForWorkload workloadId).countP AttemptRecord.counted

end AttemptRegistry

end Aidars
