import Aidars.Foundations.Collections
import Aidars.Foundations.Json
import Mathlib.Data.Finset.Basic

/-!
# Workloads, results and placement decisions

The declarative side of a workload (`WorkloadSpec` with its `ExecutionSpec`), what a worker returns
for it (`WorkloadExecutionResult`), what placement decided (`PlacementDecision`), and the record
that the coordinator keeps (`WorkloadRecord`). Sets that are compared and never iterated are
finite sets; numbers declared as floats are `PyFloat`s.
-/

namespace Aidars

/-- Why an attempt failed. -/
inductive FailureCategory
  | workerUnavailable
  | temporaryCasFailure
  | resourceExhaustion
  | executionTimeout
  | assetTransferFailure
  | assetStagingFailure
  | invalidInput
  | invalidDependency
  | missingExecutable
  | invalidWorkload
  | applicationError
  | authorizationFailure
  | malformedRequest
  | artifactVerificationFailure
  | executionFailure
  deriving DecidableEq, Repr

/-- Execution parameters of a workload. -/
structure ExecutionSpec where
  executable : String := ""
  args : List String := []
  env : Dict String String := ∅
  cwd : Option String := none
  timeoutSeconds : Option PyFloat := none
  command : Option String := none
  deriving DecidableEq

/-- How a workload relates to the workers of its affinity group. -/
inductive AffinityMode
  | none
  | sameWorker
  | differentWorker
  | sameTag
  | differentTag
  deriving DecidableEq, Repr

/-- Declarative specification of a computational task. -/
structure WorkloadSpec where
  workloadId : String
  jobId : Option String := none
  taskType : String
  inputAssetHashes : Finset String := ∅
  minCpuCores : ℕ := 1
  minRamBytes : ℕ := 1024 * 1024 * 1024
  requiresGpu : Bool := false
  minVramBytes : ℕ := 0
  estimatedDurationSeconds : PyFloat := 10
  priority : ℕ := 100
  deadlineAtUtc : Option PyFloat := none
  requiredGpuVendor : Option String := none
  requiredGpuModel : Option String := none
  minComputeCapability : Option String := none
  requiredDriverVersion : Option String := none
  requiredRuntimeCompatibility : Option String := none
  requiredWorkerTags : Dict String String := ∅
  preferredWorkerTags : Dict String String := ∅
  affinityGroupId : Option String := none
  affinityMode : AffinityMode := .none
  affinityTagKey : Option String := none
  affinityHard : Bool := true
  maxCostPerHour : Option PyFloat := none
  dependsOn : List String := []
  parameters : Dict String Json := ∅
  executionSpec : Option ExecutionSpec := none
  deriving DecidableEq

namespace WorkloadSpec

/-- A dictionary of texts as a value. -/
def tagsValue (tags : Dict String String) : Json :=
  .obj (tags.entries.map fun e => (e.1, .str e.2))

/-- A specification up to equality: the fields that are equal only if they are the same, and the
floats and dictionaries. -/
def normal (nan : Bool) (spec : WorkloadSpec) : WorkloadSpec × Json :=
  let number (x : Option PyFloat) : Json := x.elim .null .float
  ({ spec with
      estimatedDurationSeconds := 0
      deadlineAtUtc := none
      maxCostPerHour := none
      requiredWorkerTags := ∅
      preferredWorkerTags := ∅
      parameters := ∅
      executionSpec := spec.executionSpec.map fun e =>
        { e with env := ∅, timeoutSeconds := none } },
    Json.normal nan (.arr [.float spec.estimatedDurationSeconds, number spec.deadlineAtUtc,
      number spec.maxCostPerHour, tagsValue spec.requiredWorkerTags,
      tagsValue spec.preferredWorkerTags, .obj spec.parameters.entries,
      number (spec.executionSpec.bind (·.timeoutSeconds)),
      tagsValue ((spec.executionSpec.map (·.env)).getD ∅)]))

end WorkloadSpec

/-- Result metadata returned after the execution of a workload. -/
structure WorkloadExecutionResult where
  workloadId : String
  workerId : String
  success : Bool
  outputAssetHashes : Finset String
  outputAssetSizes : Dict String ℤ := ∅
  executionDurationSeconds : PyFloat
  errorMessage : Option String := none
  stdoutSnippet : Option String := none
  stderrSnippet : Option String := none
  wasCheckpointed : Bool := false
  checkpointHash : Option String := none
  failureCategory : Option FailureCategory := none
  checkpointRuntimeType : Option String := none
  checkpointFormatVersion : Option ℤ := none
  stagingDurationSeconds : PyFloat := 0
  outputIngestionDurationSeconds : PyFloat := 0
  verificationDurationSeconds : PyFloat := 0
  transferDurationSeconds : PyFloat := 0
  deriving DecidableEq

/-- Output of the placement engine. -/
structure PlacementDecision where
  workloadId : String
  selectedWorkerId : String
  placementScore : PyFloat
  scoreBreakdown : Dict String PyFloat
  missingAssetsOnWorker : Finset String
  executionTier : String
  decisionTimestampUtc : PyFloat
  candidateExplanations : List (Dict String Json) := []
  m7RankingAdjustments : Dict String PyFloat := ∅
  localityDetails : Dict String Json := ∅
  deadlineDetails : Dict String Json := ∅
  deriving DecidableEq

/-- Lifecycle of a workload. -/
inductive WorkloadState
  | submitted
  | validating
  | placing
  | placed
  | syncingAssets
  | ready
  | executing
  | migrating
  | ingesting
  | completed
  | failed
  | timeout
  | unschedulable
  | cancellationRequested
  | cancelled
  deriving DecidableEq, Repr

/-- States from which a workload is not driven again. -/
def TERMINAL_WORKLOAD_STATES : List WorkloadState :=
  [.completed, .failed, .unschedulable, .cancelled]

/-- The state of a workload whose cancellation was requested or is done. -/
def WorkloadState.isCancelled (st : WorkloadState) : Bool :=
  st = .cancellationRequested || st = .cancelled

/-- A terminal state. -/
def WorkloadState.isTerminal (st : WorkloadState) : Bool := TERMINAL_WORKLOAD_STATES.contains st

/-- The coordinator's record of a workload. `speculativeCloned` marks a straggler that was already
selected for a speculative clone. -/
structure WorkloadRecord where
  spec : WorkloadSpec
  state : WorkloadState := .submitted
  placementDecision : Option PlacementDecision := none
  executionResult : Option WorkloadExecutionResult := none
  errorMessage : Option String := none
  speculativeCloned : Bool := false
  deriving DecidableEq

end Aidars
