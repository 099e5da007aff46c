import Aidars.Foundations.FloatArithmetic
import Aidars.Models.Specification
import Aidars.Placement.Basic
import Mathlib.Algebra.BigOperators.Group.Finset.Defs
import Mathlib.Data.List.Sort

/-!
# Cluster sizing

`sizeCluster` determines how many workers a job is spread over, and which. The technical constraints
of a `SizingRequest` are checked by placement, with a probe workload that carries them
(`buildProbeSpec`). The eligible workers are sorted by the time in which each alone would finish;
for each group of the first `k` of them the units are allocated and the wall clock is projected
(`groupEvaluation`), and a policy chooses among the groups: the smallest that meets the deadline, or
as many workers as still speed the job up.

The numbers are floats, rounded as `round` says and written as `floatRepr` says. `math.floor` raises
where a float is no number (`allocateUnits`).

Whatever the policy chooses, the selected workers pass the gates of the probe
(`sizeCluster_eligible`).
-/

namespace Aidars.Sizing

/-- Policy applied by the cluster sizer to make its recommendation. -/
inductive SizingPolicy
  | singleWorkerSufficient
  | deadlineDrivenMinimal
  | efficiencyThroughput
  | transferOverheadHalt
  | diminishingReturns
  | nonPartitionable
  deriving DecidableEq, Repr

/-- Feasibility of the sizing recommendation. -/
inductive SizingFeasibilityStatus
  | feasible
  | infeasibleDeadline
  | unschedulableConstraints
  | unknownEstimate
  deriving DecidableEq, Repr

/-- Performance objective and technical constraints of a job. -/
structure SizingRequest where
  requestId : String
  taskType : String := "compute"
  totalUnits : ℤ := 1
  unitWorkloadSeconds : Option PyFloat := none
  deadlineSeconds : Option PyFloat := none
  deadlineAtUtc : Option PyFloat := none
  partitionable : Bool := true
  minUnitsPerWorker : ℤ := 1
  maxWorkersLimit : Option ℤ := none
  minCpuCores : ℕ := 1
  minRamBytes : Option ℕ := none
  requiresGpu : Bool := false
  minVramBytes : ℕ := 0
  requiredGpuVendor : Option String := none
  requiredGpuModel : Option String := none
  minComputeCapability : Option String := none
  requiredDriverVersion : Option String := none
  requiredRuntimeCompatibility : Option String := none
  requiredTags : Dict String String := ∅
  requiredWorkerTags : Dict String String := ∅
  preferredWorkerTags : Dict String String := ∅
  executionSpec : Option ExecutionSpec := none
  parameters : Dict String Json := ∅
  affinityGroupId : Option String := none
  affinityMode : String := "none"
  affinityTagKey : Option String := none
  affinityHard : Bool := true
  maxCostPerHour : Option PyFloat := none
  inputAssetHashes : Finset String := ∅
  assetSizesBytes : Dict String ℤ := ∅
  workerSpeedMultipliers : Dict String PyFloat := ∅
  networkBandwidthBytesPerSec : Option PyFloat := none
  coordinationOverheadPerWorkerSeconds : Option PyFloat := none
  marginalBenefitThreshold : Option PyFloat := none

/-- The bounds that the fields of a request are declared with. -/
def SizingRequest.isValid (r : SizingRequest) : Bool :=
  1 ≤ r.totalUnits && r.unitWorkloadSeconds.all (PyFloat.lt 0) && r.deadlineSeconds.all
    (PyFloat.lt 0) &&
    r.deadlineAtUtc.all (PyFloat.lt 0) && 1 ≤
      r.minUnitsPerWorker && r.maxWorkersLimit.all (1 ≤ ·) &&
    1 ≤ r.minCpuCores && r.minRamBytes.all (1 ≤ ·) && r.maxCostPerHour.all (PyFloat.le 0) &&
    r.networkBandwidthBytesPerSec.all (PyFloat.lt 0) &&
    r.coordinationOverheadPerWorkerSeconds.all (PyFloat.le 0) &&
    r.marginalBenefitThreshold.all fun x => PyFloat.lt 0 x && x.le 1

/-- Allocation and projection of one worker. -/
structure WorkerSizingDetail where
  workerId : String
  relativeSpeed : PyFloat
  missingAssetBytes : ℤ
  transferTimeSeconds : PyFloat
  allocatedUnits : ℤ
  estimatedComputeSeconds : PyFloat
  estimatedTotalSeconds : PyFloat
  deriving DecidableEq

/-- Projection for a group size. -/
structure GroupSizingEvaluation where
  groupSize : ℕ
  workerIds : List String
  aggregateSpeed : PyFloat
  maxTransferSeconds : PyFloat
  computeSeconds : PyFloat
  coordinationSeconds : PyFloat
  wallClockSeconds : PyFloat
  speedupOverSingle : PyFloat
  marginalSpeedup : PyFloat
  meetsDeadline : Bool
  deriving DecidableEq

/-- Sizing recommendation for a job. -/
structure SizingDecision where
  requestId : String
  policyApplied : SizingPolicy
  feasibilityStatus : SizingFeasibilityStatus
  recommendedWorkerCount : ℕ
  selectedWorkerIds : List String
  spareWorkerIds : List String
  estimatedWallClockSeconds : PyFloat
  deadlineSeconds : Option PyFloat
  deadlineAchievable : Bool
  confidenceScore : PyFloat
  workerDetails : List WorkerSizingDetail := []
  evaluationsByGroupSize : List GroupSizingEvaluation := []
  rejectionDiagnostics : List (String × List String) := []
  deriving DecidableEq

/-- What the sizer is configured with. -/
structure ClusterSizer where
  round : ℚ → PyFloat
  floatRepr : PyFloat → String
  defaultNetworkBandwidth : PyFloat := .finite (50 * 1024 * 1024)
  defaultCoordinationOverhead : PyFloat := 1
  marginalBenefitThreshold : PyFloat := round (15 / 100)
  safetyMargin : PyFloat := round (10 / 100)

/-! ## The probe -/

/-- The workload that carries the technical constraints of a request, unless what is copied from the
request is refused in a workload. -/
def buildProbeSpec (sizer : ClusterSizer) (request : SizingRequest) (nowUtc : ℚ) :
    Option WorkloadSpec := do
  let round := sizer.round
  let deadlineAtUtc := request.deadlineAtUtc <|>
    request.deadlineSeconds.map (PyFloat.add round (.finite nowUtc))
  let estDuration := match request.unitWorkloadSeconds with
    | some unit => PyFloat.max (round (1 / 10))
        (PyFloat.mul round (PyFloat.ofInt round request.totalUnits) unit)
    | none => 10
  let affinityMode ← AffinityMode.named request.affinityMode
  let inputAssetHashes ← WorkloadSpec.validateHashes request.inputAssetHashes
  let spec : WorkloadSpec :=
    { workloadId := "probe-" ++ request.requestId
      taskType := request.taskType
      inputAssetHashes
      minCpuCores := request.minCpuCores
      minRamBytes := request.minRamBytes.getD 1
      requiresGpu := request.requiresGpu
      minVramBytes := request.minVramBytes
      estimatedDurationSeconds := estDuration
      deadlineAtUtc
      requiredGpuVendor := request.requiredGpuVendor
      requiredGpuModel := request.requiredGpuModel
      minComputeCapability := request.minComputeCapability
      requiredDriverVersion := request.requiredDriverVersion
      requiredRuntimeCompatibility := request.requiredRuntimeCompatibility
      requiredWorkerTags := request.requiredTags.entries.foldl (fun d e => d.set e.1 e.2)
        request.requiredWorkerTags
      preferredWorkerTags := request.preferredWorkerTags
      affinityGroupId := request.affinityGroupId
      affinityMode
      affinityTagKey := request.affinityTagKey
      affinityHard := request.affinityHard
      maxCostPerHour := request.maxCostPerHour
      executionSpec := request.executionSpec
      parameters := request.parameters }
  if spec.constructible sizer.floatRepr then some spec else none

/-! ## Times of one worker -/

section

variable (sizer : ClusterSizer) (request : SizingRequest)

/-- The bytes of the inputs that a worker does not hold. -/
def missingBytes (p : WorkerResourceProfile) : ℤ :=
  ∑ h ∈ request.inputAssetHashes with h ∉ p.localCachedHashes,
    (request.assetSizesBytes.get? h).getD 0

/-- The time to transfer what a worker does not hold. -/
def transferTime (p : WorkerResourceProfile) : PyFloat :=
  let bandwidth := request.networkBandwidthBytesPerSec.getD sizer.defaultNetworkBandwidth
  if bandwidth.le 0 then 0
  else PyFloat.div sizer.round (PyFloat.ofInt sizer.round (missingBytes request p)) bandwidth

/-- The relative speed of a worker. -/
def workerSpeed (p : WorkerResourceProfile) : PyFloat :=
  PyFloat.max (sizer.round (1 / 100)) ((request.workerSpeedMultipliers.get? p.workerId).getD 1)

/-- The duration of one unit. -/
def unitSeconds : PyFloat := request.unitWorkloadSeconds.getD 10

/-- The time to compute some units at a speed. -/
def computeTime (units : ℤ) (speed : PyFloat) : PyFloat :=
  PyFloat.div sizer.round
    (PyFloat.mul sizer.round (PyFloat.ofInt sizer.round units) (unitSeconds request)) speed

/-- The time in which a worker alone finishes the job. -/
def soloTime (p : WorkerResourceProfile) : PyFloat :=
  PyFloat.add sizer.round (transferTime sizer request p)
    (computeTime sizer request request.totalUnits (workerSpeed sizer request p))

/-- The order of the workers: by the time of each alone, then by identifier. -/
def soloLe (p q : WorkerResourceProfile) : Prop :=
  let a := soloTime sizer request p
  let b := soloTime sizer request q
  if a = b ∧ a ≠ .nan then p.workerId ≤ q.workerId else a.lt b = true

instance : DecidableRel (soloLe sizer request) := fun p q => by
  unfold soloLe
  infer_instance

/-- The deadline, from now. -/
def effectiveDeadline (nowUtc : ℚ) : Option PyFloat :=
  request.deadlineSeconds <|>
    request.deadlineAtUtc.map fun d => PyFloat.max 0 (PyFloat.sub sizer.round d (.finite nowUtc))

/-! ## Groups -/

/-- The units of each worker by the largest remainders of their quotas. It raises where a quota is
no number or the remainder is greater than the group. -/
def allocateUnits (units : ℤ) (speeds : List PyFloat) : Option (List ℤ) := do
  let total := PyFloat.sum sizer.round speeds
  let quotas := speeds.map fun s =>
    PyFloat.mul sizer.round (PyFloat.ofInt sizer.round units) (PyFloat.div sizer.round s total)
  let floored ← quotas.mapM PyFloat.floor
  let remainder := (units - floored.sum).toNat
  let fractions := (quotas.zip floored).zipIdx.map fun ((q, f), i) =>
    (PyFloat.sub sizer.round q (PyFloat.ofInt sizer.round f), i)
  if remainder ≤ fractions.length then
    let sorted := fractions.insertionSort fun a b => ¬ a.1.lt b.1
    some <| (sorted.take remainder).foldl (fun l e => l.modify e.2 (· + 1)) floored
  else none

/-- The details of the workers of a group. -/
def groupDetails (group : List WorkerResourceProfile) (units : List ℤ) : List WorkerSizingDetail :=
  (group.zip units).map fun (p, u) =>
    let speed := workerSpeed sizer request p
    let compute := if 0 < u then computeTime sizer request u speed else 0
    { workerId := p.workerId
      relativeSpeed := speed
      missingAssetBytes := missingBytes request p
      transferTimeSeconds := transferTime sizer request p
      allocatedUnits := u
      estimatedComputeSeconds := compute
      estimatedTotalSeconds := PyFloat.add sizer.round (transferTime sizer request p) compute }

/-- The projection of a group, after those of the smaller groups. -/
def groupEvaluation (deadline : Option PyFloat) (group : List WorkerResourceProfile)
    (details : List WorkerSizingDetail) (smaller : List GroupSizingEvaluation) :
    GroupSizingEvaluation :=
  let k := group.length
  let overhead :=
    request.coordinationOverheadPerWorkerSeconds.getD sizer.defaultCoordinationOverhead
  let coordination := PyFloat.mul sizer.round (PyFloat.ofInt sizer.round (k - 1)) overhead
  let wallClock := PyFloat.add sizer.round
    (PyFloat.maxOf 0 (details.map (·.estimatedTotalSeconds))) coordination
  let ratio := fun a b => if PyFloat.lt 0 b then PyFloat.div sizer.round a b else 1
  { groupSize := k
    workerIds := group.map (·.workerId)
    aggregateSpeed := PyFloat.sum sizer.round (group.map (workerSpeed sizer request))
    maxTransferSeconds := PyFloat.maxOf 0 (details.map (·.transferTimeSeconds))
    computeSeconds := PyFloat.maxOf 0 (details.map (·.estimatedComputeSeconds))
    coordinationSeconds := coordination
    wallClockSeconds := wallClock
    speedupOverSingle := (smaller.head?.map fun e => ratio e.wallClockSeconds wallClock).getD 1
    marginalSpeedup := (smaller.getLast?.map fun e =>
      if PyFloat.lt 0 e.wallClockSeconds then
        PyFloat.div sizer.round (PyFloat.sub sizer.round e.wallClockSeconds wallClock)
          e.wallClockSeconds
      else 0).getD 0
    meetsDeadline := deadline.all wallClock.le }

/-- The projections of the groups of the first workers, with the details of each. -/
def groupEvaluations (deadline : Option PyFloat) (sorted : List WorkerResourceProfile) :
    ℕ → Option (List GroupSizingEvaluation × List (List WorkerSizingDetail))
  | 0 => some ([], [])
  | k + 1 => do
    let (evaluations, details) ← groupEvaluations deadline sorted k
    let group := sorted.take (k + 1)
    let units ← allocateUnits sizer request.totalUnits (group.map (workerSpeed sizer request))
    let workers := groupDetails sizer request group units
    return (evaluations ++ [groupEvaluation sizer request deadline group workers evaluations],
      details ++ [workers])

/-! ## The policy -/

/-- The first projection with the least wall clock. -/
def fastest : List GroupSizingEvaluation → Option GroupSizingEvaluation
  | [] => none
  | e :: es => some <| es.foldl
    (fun best e => if e.wallClockSeconds.lt best.wallClockSeconds then e else best) e

/-- Without a deadline: workers are added as long as each speeds the job up by enough. `previous` is
the projection of the group before. -/
def expand (threshold : PyFloat) (previous : GroupSizingEvaluation) :
    List GroupSizingEvaluation → ℕ × SizingPolicy
  | [] => (previous.groupSize, .efficiencyThroughput)
  | e :: es =>
    if previous.wallClockSeconds.le e.wallClockSeconds then
      (previous.groupSize, .transferOverheadHalt)
    else if e.marginalSpeedup.lt threshold then (previous.groupSize, .diminishingReturns)
    else expand threshold e es

/-- The size of the group, the policy that chose it, and whether the deadline can be met. -/
def choosePolicy (deadline : Option PyFloat) (first : GroupSizingEvaluation)
    (rest : List GroupSizingEvaluation) : ℕ × SizingPolicy × Bool :=
  let evaluations := first :: rest
  match deadline with
  | some deadline =>
    let safetyTarget :=
      PyFloat.mul sizer.round deadline (PyFloat.sub sizer.round 1 sizer.safetyMargin)
    if first.wallClockSeconds.le safetyTarget then (1, .singleWorkerSufficient, true)
    else
      match (evaluations.find? (·.wallClockSeconds.le safetyTarget)).or
        (evaluations.find? (·.wallClockSeconds.le deadline)) with
      | some e => (e.groupSize, .deadlineDrivenMinimal, true)
      | none =>
        (((fastest evaluations).map (·.groupSize)).getD 1, .deadlineDrivenMinimal, false)
  | none =>
    let (k, policy) := expand (request.marginalBenefitThreshold.getD sizer.marginalBenefitThreshold)
      first rest
    (k, policy, true)

/-- A single worker that was chosen because a second one would be slower. -/
def correctPolicy (k : ℕ) (policy : SizingPolicy) (first : GroupSizingEvaluation)
    (rest : List GroupSizingEvaluation) : SizingPolicy :=
  if k = 1 ∧ (rest.head?.any fun e => first.wallClockSeconds.le e.wallClockSeconds) ∧
      policy ≠ .singleWorkerSufficient ∧ policy ≠ .nonPartitionable then .transferOverheadHalt
  else policy

/-- The feasibility of a recommendation. -/
def feasibility (achievable : Bool) : SizingFeasibilityStatus :=
  if !achievable then .infeasibleDeadline
  else if request.unitWorkloadSeconds.isNone then .unknownEstimate
  else .feasible

/-- The confidence in an estimate. -/
def confidence : PyFloat := if request.unitWorkloadSeconds.isSome then 1 else .finite (1 / 2)

/-! ## The recommendation -/

/-- The recommendation when no worker is eligible. -/
def unschedulable (deadline : Option PyFloat) (rejections : List (String × List String)) :
    SizingDecision where
  requestId := request.requestId
  policyApplied := .singleWorkerSufficient
  feasibilityStatus := .unschedulableConstraints
  recommendedWorkerCount := 0
  selectedWorkerIds := []
  spareWorkerIds := []
  estimatedWallClockSeconds := 0
  deadlineSeconds := deadline
  deadlineAchievable := false
  confidenceScore := 1
  rejectionDiagnostics := rejections

/-- The recommendation of the best worker alone. -/
def single (deadline : Option PyFloat) (rejections : List (String × List String))
    (best : WorkerResourceProfile) (rest : List WorkerResourceProfile) : SizingDecision :=
  let speed := workerSpeed sizer request best
  let transfer := transferTime sizer request best
  let compute := computeTime sizer request request.totalUnits speed
  let total := PyFloat.add sizer.round transfer compute
  let meets := deadline.all total.le
  { requestId := request.requestId
    policyApplied := .nonPartitionable
    feasibilityStatus := feasibility request meets
    recommendedWorkerCount := 1
    selectedWorkerIds := [best.workerId]
    spareWorkerIds := rest.map (·.workerId)
    estimatedWallClockSeconds := total
    deadlineSeconds := deadline
    deadlineAchievable := meets
    confidenceScore := confidence request
    workerDetails := [{
      workerId := best.workerId
      relativeSpeed := speed
      missingAssetBytes := missingBytes request best
      transferTimeSeconds := transfer
      allocatedUnits := request.totalUnits
      estimatedComputeSeconds := compute
      estimatedTotalSeconds := total }]
    evaluationsByGroupSize := [{
      groupSize := 1
      workerIds := [best.workerId]
      aggregateSpeed := speed
      maxTransferSeconds := transfer
      computeSeconds := compute
      coordinationSeconds := 0
      wallClockSeconds := total
      speedupOverSingle := 1
      marginalSpeedup := 0
      meetsDeadline := meets }]
    rejectionDiagnostics := rejections }

/-- The greatest group that is considered. -/
def maxPossible (sorted : List WorkerResourceProfile) : ℕ :=
  let k := min (sorted.length : ℤ) (max 1 (request.totalUnits / request.minUnitsPerWorker))
  let k := request.maxWorkersLimit.elim k (min k)
  (max 1 k).toNat

/-- The recommendation of a group. -/
def grouped (deadline : Option PyFloat) (rejections : List (String × List String))
    (sorted : List WorkerResourceProfile) : Option SizingDecision := do
  let (evaluations, details) ←
    groupEvaluations sizer request deadline sorted (maxPossible request sorted)
  match evaluations with
  | [] => none
  | first :: rest =>
    let (k, policy, achievable) := choosePolicy sizer request deadline first rest
    let chosen ← evaluations[k - 1]?
    return {
      requestId := request.requestId
      policyApplied := correctPolicy k policy first rest
      feasibilityStatus := feasibility request achievable
      recommendedWorkerCount := k
      selectedWorkerIds := chosen.workerIds
      spareWorkerIds := (sorted.map (·.workerId)).filter (· ∉ chosen.workerIds)
      estimatedWallClockSeconds := chosen.wallClockSeconds
      deadlineSeconds := deadline
      deadlineAchievable := achievable
      confidenceScore := confidence request
      workerDetails := (details[k - 1]?).getD []
      evaluationsByGroupSize := evaluations
      rejectionDiagnostics := rejections }

end

/-- Why the workers that are not eligible are rejected. -/
def rejections (text : TextFunctions) (ctx : PlacementContext) (spec : WorkloadSpec)
    (profiles : List WorkerResourceProfile) : List (String × List String) :=
  (profiles.filter fun p => !Placement.eligible text ctx spec p).map fun p =>
    (p.workerId, Placement.rejectionReasons text ctx spec p)

/-- Determine the smallest sufficient set of workers. -/
def sizeCluster (sizer : ClusterSizer) (text : TextFunctions) (ctx : PlacementContext)
    (request : SizingRequest) (profiles : List WorkerResourceProfile) : Option SizingDecision := do
  let deadline := effectiveDeadline sizer request ctx.nowUtc
  let probe ← buildProbeSpec sizer request ctx.nowUtc
  let eligibleIds := (profiles.filter (Placement.eligible text ctx probe)).map (·.workerId)
  let rejections := rejections text ctx probe profiles
  let sorted := (profiles.filter (·.workerId ∈ eligibleIds)).insertionSort (soloLe sizer request)
  match sorted with
  | [] => some (unschedulable request deadline rejections)
  | best :: rest =>
    if !request.partitionable || request.totalUnits ≤ 1 then
      some (single sizer request deadline rejections best rest)
    else grouped sizer request deadline rejections sorted

/-! ## The selected workers -/

variable {sizer : ClusterSizer} {text : TextFunctions} {ctx : PlacementContext}
  {request : SizingRequest} {profiles sorted : List WorkerResourceProfile} {d : SizingDecision}
  {deadline : Option PyFloat} {rejected : List (String × List String)}

/-- The groups are made of the sorted workers. -/
theorem groupEvaluations_workerIds {k : ℕ} {evaluations : List GroupSizingEvaluation}
    {details : List (List WorkerSizingDetail)}
    (h : groupEvaluations sizer request deadline sorted k = some (evaluations, details)) :
    ∀ e ∈ evaluations, e.workerIds ⊆ sorted.map (·.workerId) := by
  induction k generalizing evaluations details with
  | zero =>
    obtain ⟨rfl, -⟩ := Prod.mk.inj (Option.some.inj h)
    exact fun e he => absurd he List.not_mem_nil
  | succ k ih =>
    simp only [groupEvaluations, Option.bind_eq_bind, Option.bind_eq_some_iff] at h
    obtain ⟨⟨evaluations₀, details₀⟩, h₀, units, -, h⟩ := h
    obtain ⟨rfl, -⟩ := Prod.mk.inj (Option.some.inj h)
    intro e he
    rcases List.mem_append.1 he with he | he
    · exact ih h₀ e he
    · obtain rfl := List.mem_singleton.1 he
      exact List.map_subset _ (List.take_subset _ _)

theorem grouped_selected (h : grouped sizer request deadline rejected sorted = some d) :
    d.selectedWorkerIds ⊆ sorted.map (·.workerId) := by
  simp only [grouped, Option.bind_eq_bind, Option.bind_eq_some_iff] at h
  obtain ⟨⟨evaluations, details⟩, hevaluations, h⟩ := h
  split at h
  · cases h
  · obtain ⟨chosen, hchosen, h⟩ := Option.bind_eq_some_iff.1 h
    obtain rfl := Option.some.inj h
    exact groupEvaluations_workerIds hevaluations chosen (List.mem_of_getElem? hchosen)

/-- **The selected workers pass the gates of the probe.** -/
theorem sizeCluster_eligible {probe : WorkloadSpec}
    (hprobe : buildProbeSpec sizer request ctx.nowUtc = some probe)
    (h : sizeCluster sizer text ctx request profiles = some d) :
    ∀ wid ∈ d.selectedWorkerIds,
      ∃ p ∈ profiles, p.workerId = wid ∧ Placement.eligible text ctx probe p = true := by
  simp only [sizeCluster, hprobe, Option.bind_eq_bind, Option.bind_some] at h
  generalize hsorted : (profiles.filter _).insertionSort (soloLe sizer request) = sorted at h
  -- a worker that is sorted has the identifier of an eligible one
  have hmem : ∀ wid ∈ sorted.map (·.workerId),
      ∃ p ∈ profiles, p.workerId = wid ∧ Placement.eligible text ctx probe p = true := by
    intro wid hwid
    obtain ⟨q, hq, rfl⟩ := List.mem_map.1 hwid
    rw [← hsorted, List.mem_insertionSort, List.mem_filter] at hq
    obtain ⟨p, hp, hid⟩ := List.mem_map.1 (of_decide_eq_true hq.2)
    exact ⟨p, (List.mem_filter.1 hp).1, hid, (List.mem_filter.1 hp).2⟩
  intro wid hwid
  split at h
  · obtain rfl := Option.some.inj h
    cases hwid
  · split_ifs at h
    · obtain rfl := Option.some.inj h
      obtain rfl := List.mem_singleton.1 hwid
      exact hmem _ List.mem_cons_self
    · exact hmem wid (grouped_selected h hwid)

end Aidars.Sizing
