import Aidars.Foundations.Ranking
import Aidars.Models.Worker
import Aidars.Models.Workload
import Mathlib.Algebra.Order.Field.Rat
import Mathlib.Data.Finset.Card

/-!
# The risk of a placement

From the telemetry that is remembered of a worker and of a type of workloads, `evaluateCandidate`
estimates how risky it is to place a workload at the worker: features of both, a class of behaviour
for each, a prediction, and a weighted sum of four risks. `evaluateEnvironment` weighs the risks by
the state of the whole cluster. All numbers are exact rationals, except for the estimated duration,
which may be infinite.
-/

namespace Aidars.M7

/-! ## Memory -/

/-- An exponential moving average. -/
structure EMA where
  value : ℚ := 0
  alpha : ℚ := 0.2
  initialized : Bool := false
  deriving DecidableEq

/-- Take a value into a moving average. -/
def EMA.update (e : EMA) (newValue : ℚ) : EMA :=
  if !e.initialized then { e with value := newValue, initialized := true }
  else { e with value := e.alpha * newValue + (1 - e.alpha) * e.value }

/-- What is remembered of a worker. -/
structure WorkerTemporalState where
  cpuUtilizationEma : EMA := { alpha := 0.15 }
  ramUtilizationEma : EMA := { alpha := 0.15 }
  latencyEma : EMA := { alpha := 0.3 }
  failureRateEma : EMA := { alpha := 0.1 }
  deriving DecidableEq

/-- What is remembered of a type of workloads. -/
structure WorkloadTemporalState where
  durationEma : EMA := { alpha := 0.2 }
  ramPeakEma : EMA := { alpha := 0.2 }
  failureRateEma : EMA := { alpha := 0.1 }
  deriving DecidableEq

/-- The memory of workers and of types of workloads. -/
structure TelemetryMemory where
  workers : Dict String WorkerTemporalState := ∅
  workloads : Dict String WorkloadTemporalState := ∅
  deriving DecidableEq

/-! ## Features -/

/-- Numbers about a worker and its history. -/
structure WorkerFeatureVector where
  cpuAvailableRatio : ℚ
  ramAvailableRatio : ℚ
  vramAvailableRatio : ℚ
  hasGpu : ℚ
  activeWorkloadRatio : ℚ
  cacheLocalityRatio : ℚ
  heartbeatStability : ℚ
  recentFailureRate : ℚ
  recentLatencyNormalized : ℚ
  throughputNormalized : ℚ

/-- Numbers about a workload. -/
structure WorkloadFeatureVector where
  requiredCpuRatio : ℚ
  requiredRamRatio : ℚ
  requiredVramRatio : ℚ
  requiresGpu : ℚ
  dependencyCountNormalized : ℚ
  dependencyBytesNormalized : ℚ
  priorityNormalized : ℚ
  estimatedDurationNormalized : PyFloat

/-- The ratio that is free by a moving average of the use, if there is one. -/
def freeRatio (ratio : ℚ) (ema : EMA) : ℚ :=
  if ema.initialized then max 0 (min 1 (1 - ema.value)) else ratio

/-- The features of a worker. -/
def extractWorkerFeatures (profile : WorkerResourceProfile)
    (temporal : Option WorkerTemporalState) (spec : WorkloadSpec) : WorkerFeatureVector :=
  let cpuRatio := max 0 (1 - profile.cpuUtilizationPercent / 100)
  let ramTotal : ℚ := if 0 < profile.ramTotalBytes then profile.ramTotalBytes else 1
  let ramRatio := profile.ramAvailableBytes / ramTotal
  let vramTotal : ℚ := if 0 < profile.vramTotalBytes then profile.vramTotalBytes else 1
  let required := spec.inputAssetHashes
  { cpuAvailableRatio := temporal.elim cpuRatio fun t => freeRatio cpuRatio t.cpuUtilizationEma
    ramAvailableRatio := temporal.elim ramRatio fun t => freeRatio ramRatio t.ramUtilizationEma
    vramAvailableRatio := profile.vramAvailableBytes / vramTotal
    hasGpu := if profile.gpuAvailable then 1 else 0
    activeWorkloadRatio := min 1 (profile.activeWorkloadCount / profile.maxConcurrentWorkloads)
    cacheLocalityRatio :=
      if required = ∅ then 1
      else ((required.filter (· ∈ profile.localCachedHashes)).card : ℚ) / required.card
    heartbeatStability := 1
    recentFailureRate := temporal.elim 0 fun t => min 1 (max 0 t.failureRateEma.value)
    recentLatencyNormalized := temporal.elim 0 fun t => min 1 (max 0 (t.latencyEma.value / 1000))
    throughputNormalized := 0 }

/-- The features of a workload. -/
def extractWorkloadFeatures (spec : WorkloadSpec) (networkMaxRam networkMaxCpu : ℕ)
    (totalDependencyBytes : ℕ := 0) : WorkloadFeatureVector :=
  let maxCpu : ℚ := if networkMaxCpu = 0 then 1 else networkMaxCpu
  let maxRam : ℚ := if networkMaxRam = 0 then 1 else networkMaxRam
  { requiredCpuRatio := min 1 (spec.minCpuCores / maxCpu)
    requiredRamRatio := min 1 (spec.minRamBytes / maxRam)
    requiredVramRatio := min 1 (spec.minVramBytes / maxRam)
    requiresGpu := if spec.requiresGpu then 1 else 0
    dependencyCountNormalized := min 1 ((spec.inputAssetHashes.card : ℚ) / 100)
    dependencyBytesNormalized := min 1 ((totalDependencyBytes : ℚ) / (50 * 1024 * 1024 * 1024))
    priorityNormalized := min 1 (max 0 ((spec.priority : ℚ) / 100))
    estimatedDurationNormalized := .min 1 (.div .finite spec.estimatedDurationSeconds 3600) }

/-! ## Behaviour -/

/-- How a worker behaves. -/
inductive WorkerState
  | stable
  | degraded
  | erratic
  | overloaded
  | recovering
  | unknown
  deriving DecidableEq

/-- What a workload mostly needs. -/
inductive LoadState
  | cpuBound
  | memoryBound
  | gpuBound
  | ioBound
  | networkBound
  | mixed
  | unknown
  deriving DecidableEq

/-- The class of a worker, and the confidence in it. -/
def inferWorkerBehavior (features : WorkerFeatureVector) : WorkerState × ℚ :=
  if features.cpuAvailableRatio < 0.15 ∧ features.ramAvailableRatio < 0.15 then
    (.overloaded,
      min 1 (max 0.5 (1 - max features.cpuAvailableRatio features.ramAvailableRatio / 0.15)))
  else if 0.3 < features.recentFailureRate then
    (.erratic, min 1 (features.recentFailureRate * 2))
  else if features.heartbeatStability < 0.8 then (.degraded, 1 - features.heartbeatStability)
  else if 0.7 < features.recentLatencyNormalized then
    (.degraded, features.recentLatencyNormalized)
  else
    (.stable, min 1 (max 0.1 (features.heartbeatStability * (1 - features.recentFailureRate))))

/-- The confidence in a workload being bound by one resource rather than by another. -/
def dominance (ratio other : ℚ) : ℚ :=
  max 0.5 (min 1 (ratio / (if other = 0 then 0.01 else other) * 0.2))

/-- The class of a workload, and the confidence in it. -/
def inferWorkloadBehavior (features : WorkloadFeatureVector) : LoadState × ℚ :=
  if 0.5 < features.requiresGpu then (.gpuBound, 0.9)
  else if 0.5 < features.dependencyCountNormalized ∨ 0.5 < features.dependencyBytesNormalized then
    (.ioBound,
      min 1 (max features.dependencyCountNormalized features.dependencyBytesNormalized))
  else if features.requiredRamRatio * 1.5 < features.requiredCpuRatio ∧
      0.1 < features.requiredCpuRatio then
    (.cpuBound, dominance features.requiredCpuRatio features.requiredRamRatio)
  else if features.requiredCpuRatio * 1.5 < features.requiredRamRatio ∧
      0.1 < features.requiredRamRatio then
    (.memoryBound, dominance features.requiredRamRatio features.requiredCpuRatio)
  else (.mixed, 0.6)

/-! ## Prediction -/

/-- What is predicted of a workload at a worker. -/
structure PredictionResult where
  predictedDurationSeconds : ℚ
  predictedRamPeakBytes : ℤ
  failureProbability : ℚ
  confidence : ℚ

/-- The integer part of a number, towards zero. -/
def truncate (q : ℚ) : ℤ := if 0 ≤ q then ⌊q⌋ else ⌈q⌉

/-- The chance that a workload fails. -/
def failureProbability (worker : WorkerFeatureVector) (workerState : WorkerState)
    (loadState : LoadState) (workloadTemporal : Option WorkloadTemporalState) : ℚ :=
  let p := worker.recentFailureRate
  let p := workloadTemporal.elim p fun t =>
    if t.failureRateEma.initialized then max p t.failureRateEma.value else p
  let p := if loadState = .memoryBound ∧ worker.ramAvailableRatio < 0.2 then min 1 (p + 0.3) else p
  let p := if loadState = .gpuBound ∧ worker.hasGpu < 0.5 then min 1 (p + 0.9) else p
  if workerState = .erratic then min 1 (p + 0.4)
  else if workerState = .overloaded then min 1 (p + 0.5)
  else p

/-- Predict how a workload runs at a worker. -/
def predict (worker : WorkerFeatureVector) (workerBehavior : WorkerState × ℚ)
    (workloadBehavior : LoadState × ℚ) (workloadTemporal : Option WorkloadTemporalState) :
    PredictionResult :=
  let history := workloadTemporal.filter (·.durationEma.initialized)
  let baseDuration := history.elim 10 (·.durationEma.value)
  let baseRam : ℤ := history.elim (1024 * 1024 * 1024) fun t => truncate t.ramPeakEma.value
  let durationMultiplier :=
    if workloadBehavior.1 = .cpuBound then 1 / max 0.1 worker.cpuAvailableRatio
    else if workloadBehavior.1 = .ioBound then 1 - worker.cacheLocalityRatio * 0.5
    else 1
  let ramMultiplier : ℚ := if workloadBehavior.1 = .memoryBound then 1.2 else 1
  let confidence :=
    if history.isNone then 0.3
    else
      let c := workerBehavior.2 * workloadBehavior.2 * worker.heartbeatStability
      if workerBehavior.1 = .unknown ∨ workloadBehavior.1 = .unknown then c * 0.5 else c
  { predictedDurationSeconds := baseDuration * durationMultiplier
    predictedRamPeakBytes := truncate (baseRam * ramMultiplier)
    failureProbability := failureProbability worker workerBehavior.1 workloadBehavior.1
      workloadTemporal
    confidence := min 1 (max 0 confidence) }

/-! ## Risk -/

/-- The risk of a placement, by its causes. -/
structure RiskScore where
  pFailure : ℚ
  uPrediction : ℚ
  pResourceExhaustion : ℚ
  pDeadlineMiss : ℚ
  totalRisk : ℚ
  deriving DecidableEq

/-- The weighted sum of the risks. -/
def RiskScore.calculate (pFailure uPrediction pResourceExhaustion pDeadlineMiss : ℚ) :
    RiskScore where
  pFailure
  uPrediction
  pResourceExhaustion
  pDeadlineMiss
  totalRisk := min 1 (max 0
    (pFailure * 0.4 + uPrediction * 0.2 + pResourceExhaustion * 0.3 + pDeadlineMiss * 0.1))

/-- The risk of what is predicted. -/
def evaluateRisk (prediction : PredictionResult) (maxRamAvailable : ℕ)
    (deadlineSeconds : PyFloat) : RiskScore :=
  let ramRatio : ℚ := prediction.predictedRamPeakBytes / maxRamAvailable
  let pExhaust : ℚ :=
    if 0 < maxRamAvailable then
      if 0.9 < ramRatio then 0.8 else if 0.7 < ramRatio then 0.4 else 0
    else 0
  let duration := PyFloat.finite prediction.predictedDurationSeconds
  let pDeadline : ℚ :=
    if PyFloat.lt 0 deadlineSeconds then
      if deadlineSeconds.lt duration then 1
      else if (PyFloat.mul .finite deadlineSeconds (.finite 0.8)).lt duration then 0.5
      else 0
    else 0
  .calculate prediction.failureProbability (1 - prediction.confidence) pExhaust pDeadline

/-! ## Policy -/

/-- How much each part of a decision counts. -/
structure PolicyWeights where
  computeWeight : ℚ := 0.35
  localityWeight : ℚ := 0.20
  networkWeight : ℚ := 0.15
  riskWeight : ℚ := 0.15
  queueWeight : ℚ := 0.15

/-- The sum of the weights. -/
def PolicyWeights.total (w : PolicyWeights) : ℚ :=
  w.computeWeight + w.localityWeight + w.networkWeight + w.riskWeight + w.queueWeight

/-- The weights with the sum one. -/
def PolicyWeights.normalize (w : PolicyWeights) : PolicyWeights where
  computeWeight := w.computeWeight / w.total
  localityWeight := w.localityWeight / w.total
  networkWeight := w.networkWeight / w.total
  riskWeight := w.riskWeight / w.total
  queueWeight := w.queueWeight / w.total

/-- The weights for a network with latencies, and for workers that fail. -/
def adaptWeights (avgLatency avgFailure : ℚ) : PolicyWeights :=
  let w : PolicyWeights := {}
  let w := if 200 < avgLatency then
      { w with localityWeight := 0.40, networkWeight := 0.10, computeWeight := 0.20 } else w
  if 0.10 < avgFailure then
    { w with
      riskWeight := 0.40
      computeWeight := max 0.05 (w.computeWeight - 0.15)
      queueWeight := max 0.05 (w.queueWeight - 0.10) }
  else w

/-- The weights for the state of the cluster. -/
def evaluateEnvironment (activeWorkers : List WorkerTemporalState) : PolicyWeights :=
  if activeWorkers = [] then {}
  else
    let avgLatency := (activeWorkers.map (·.latencyEma.value)).sum / activeWorkers.length
    let avgFailure := (activeWorkers.map (·.failureRateEma.value)).sum / activeWorkers.length
    (adaptWeights avgLatency avgFailure).normalize

/-! ## The bridge to placement -/

/-- The limits that the requirements of workloads are measured against. -/
def networkMaxRam : ℕ := 32 * 1024 * 1024 * 1024

def networkMaxCpu : ℕ := 64

/-- The risk of placing a workload at a candidate. -/
def evaluateCandidate (memory : TelemetryMemory) (workload : WorkloadSpec)
    (candidate : WorkerResourceProfile) : RiskScore :=
  let wlFeatures := extractWorkloadFeatures workload networkMaxRam networkMaxCpu
  let temporal := memory.workers.get? candidate.workerId
  let wFeatures := extractWorkerFeatures candidate temporal workload
  let prediction := predict wFeatures (inferWorkerBehavior wFeatures)
    (inferWorkloadBehavior wlFeatures) (memory.workloads.get? workload.taskType)
  evaluateRisk prediction candidate.ramAvailableBytes
    (.mul .finite workload.estimatedDurationSeconds (.finite 1.5))

/-- The risks of the candidates. -/
def evaluateCandidates (memory : TelemetryMemory) (workload : WorkloadSpec)
    (candidates : List WorkerResourceProfile) : Dict String RiskScore :=
  .ofList (candidates.map fun c => (c.workerId, evaluateCandidate memory workload c))

/-- The weight of risks in the ranking. -/
def effectiveLambda (memory : TelemetryMemory) (riskWeight : ℚ) : ℚ :=
  riskWeight * (evaluateEnvironment memory.workers.values).riskWeight

/-- The scores less the weighted risks. -/
def finalScores (memory : TelemetryMemory) (originalScores : Dict String ℚ)
    (intelligence : Dict String RiskScore) (riskWeight : ℚ) : Dict String ℚ :=
  originalScores.mapValues fun wid score =>
    (intelligence.get? wid).elim score fun risk =>
      score - effectiveLambda memory riskWeight * risk.totalRisk

/-- The identifiers by falling score. -/
def byScore (scores : Dict String ℚ) : List String :=
  sortOn (fun wid => -((scores.get? wid).getD 0)) scores.keys

/-- The candidates by their scores less the weighted risks. -/
def adjustRanking (memory : TelemetryMemory) (originalScores : Dict String ℚ)
    (intelligence : Dict String RiskScore) (riskWeight : ℚ := 0.5) : List String :=
  if intelligence.entries = [] then byScore originalScores
  else byScore (finalScores memory originalScores intelligence riskWeight)

end Aidars.M7
