import Aidars.Foundations.Rounding
import Aidars.Models.Worker
import Mathlib.Algebra.BigOperators.Group.List.Basic
import Mathlib.Data.Rat.Floor

/-!
# The shards of a training job

A data set is split among workers by their throughput scores: each gets the part between two ratios,
which begins where the part before it ends. `planShards`, `partitionWorkload` and the splitting for
process groups, `ddpSpecs`, round the ratios to four decimals in one way, `shardLoop`;
`partitionWorkload` also says how many samples each part has.

What they split is the same for the same scores: `ratios_planShards`, `ratios_partitionWorkload`
and `ratios_ddpSpecs`.
-/

namespace Aidars.Training

/-! ## Workers -/

/-- What splitting reads of a worker. -/
structure TrainingWorker where
  workerId : Option String := none
  status : Option WorkerStatus := none
  canExecuteWorkloads : Bool := true
  capabilities : Option (List String) := none
  tags : Option (Dict String String) := none
  /-- The throughput score of its resource profile, if it has one. -/
  throughput : Option ℚ := none
  deriving DecidableEq

namespace TrainingWorker

/-- The worker can run a training job. -/
def isCapable (w : TrainingWorker) : Bool :=
  w.status ∉ [some .offline, some .draining] && w.canExecuteWorkloads &&
    (w.capabilities.all fun caps => ["python", "ml_training", "custom_script"].any (· ∈ caps)) &&
    (w.tags.all fun tags =>
      !(tags.get? "cap:python" = some "false" && tags.get? "cap:pytorch" = some "false"))

end TrainingWorker

/-- The score of a worker, with the default for one without a profile. -/
def throughputScore (w : Option TrainingWorker) : ℚ := (w.bind (·.throughput)).getD 4

/-- The name of a worker, with the default for one without a name. -/
def workerIdOr (default : String) (w : Option TrainingWorker) : String :=
  (w.bind (·.workerId)).getD default

/-! ## Splitting -/

/-- The share of each score. -/
def shares (scores : List ℚ) : List ℚ :=
  let totalScore := if scores.sum = 0 then (scores.length : ℚ) else scores.sum
  scores.map (· / totalScore)

/-- The loop over the workers and their shares: an entry for each, from the border before it to the
rounded next one, and for the last up to 1. -/
def shardLoop {γ : Type*} (entry : ℕ → Option TrainingWorker → ℚ → ℚ → γ) (numWorkers : ℕ)
    (currRatio : ℚ) (i : ℕ) : List (Option TrainingWorker × ℚ) → List γ
  | [] => []
  | (w, share) :: rest =>
    let startRatio := currRatio
    let endRatio := if i + 1 = numWorkers then 1 else roundTo 4 (currRatio + share)
    entry i w startRatio endRatio :: shardLoop entry numWorkers endRatio (i + 1) rest

/-- An entry for each worker. -/
def splitAmong {γ : Type*} (entry : ℕ → Option TrainingWorker → ℚ → ℚ → γ)
    (workers : List (Option TrainingWorker)) : List γ :=
  shardLoop entry workers.length 0 0 (workers.zip (shares (workers.map throughputScore)))

/-- What planning writes into the specification of a shard. -/
structure ShardSpec where
  shardIndex : ℕ
  totalShards : ℕ
  startRatio : ℚ
  endRatio : ℚ
  throughputScore : ℚ
  workerId : String

/-- The workers that can run a training job, or one without a name. -/
def capableWorkers (activeWorkers : List (Option TrainingWorker)) : List (Option TrainingWorker) :=
  let capable := activeWorkers.filter fun w => w.all (·.isCapable)
  if capable = [] then [none] else capable

/-- The shards of a training job. -/
def planShards (activeWorkers : List (Option TrainingWorker)) : List ShardSpec :=
  let workers := capableWorkers activeWorkers
  splitAmong (fun i w startRatio endRatio =>
    { shardIndex := i
      totalShards := workers.length
      startRatio := startRatio
      endRatio := endRatio
      throughputScore := throughputScore w
      workerId := workerIdOr ("worker-" ++ toString i) w }) workers

/-- A part of a workload. -/
structure Partition where
  shardIndex : ℕ
  workerId : String
  startRatio : ℚ
  endRatio : ℚ
  sampleCount : ℤ

/-- A number that is given and not 0. -/
def orElse (n : Option ℕ) (default : ℕ) : ℕ := if n.getD 0 = 0 then default else n.getD 0

/-- How many samples the parts of a workload have to make. -/
def nSamples (workers : List (Option TrainingWorker)) (totalSamples workloadLen : Option ℕ) : ℕ :=
  if workers = [] then orElse totalSamples 100 else orElse totalSamples (workloadLen.getD 1000)

/-- The parts of a workload. -/
def partitionWorkload (activeWorkers : List (Option TrainingWorker))
    (totalSamples workloadLen : Option ℕ) : List Partition :=
  if activeWorkers = [] then
    [{ shardIndex := 0
       workerId := "local"
       startRatio := 0
       endRatio := 1
       sampleCount := orElse totalSamples 100 }]
  else
    let n := nSamples activeWorkers totalSamples workloadLen
    splitAmong (fun i w startRatio endRatio =>
      { shardIndex := i
        workerId := workerIdOr ("worker-" ++ toString i) w
        startRatio := startRatio
        endRatio := endRatio
        sampleCount := roundEven ((endRatio - startRatio) * n) }) activeWorkers

/-- What splitting writes into the specification of a process. -/
structure RankSpec where
  rank : ℕ
  worldSize : ℕ
  throughputScore : ℚ
  startRatio : ℚ
  endRatio : ℚ
  workerId : String

/-- The workers of a process group, or so many without a name. -/
def rankedWorkers (activeWorkers : List (Option TrainingWorker)) (workerCount : ℤ) :
    List (Option TrainingWorker) :=
  if activeWorkers = [] then List.replicate (max 1 workerCount).toNat none else activeWorkers

/-- The processes of a process group. -/
def ddpSpecs (activeWorkers : List (Option TrainingWorker)) (workerCount : ℤ) : List RankSpec :=
  let workers := rankedWorkers activeWorkers workerCount
  splitAmong (fun rank w startRatio endRatio =>
    { rank := rank
      worldSize := workers.length
      throughputScore := throughputScore w
      startRatio := startRatio
      endRatio := endRatio
      workerId := workerIdOr ("worker-" ++ toString rank) w }) workers

/-! ## The ratios -/

/-- The ratios of some workers. -/
def ratios (workers : List (Option TrainingWorker)) : List (ℚ × ℚ) :=
  splitAmong (fun _ _ startRatio endRatio => (startRatio, endRatio)) workers

theorem map_shardLoop {γ δ : Type*} (f : γ → δ) (entry : ℕ → Option TrainingWorker → ℚ → ℚ → γ)
    (numWorkers : ℕ) (currRatio : ℚ) (i : ℕ) (l : List (Option TrainingWorker × ℚ)) :
    (shardLoop entry numWorkers currRatio i l).map f =
      shardLoop (fun i w s e => f (entry i w s e)) numWorkers currRatio i l := by
  induction l generalizing currRatio i with
  | nil => rfl
  | cons p l ih => simp only [shardLoop, List.map_cons, ih]

theorem map_splitAmong {γ δ : Type*} (f : γ → δ) (entry : ℕ → Option TrainingWorker → ℚ → ℚ → γ)
    (workers : List (Option TrainingWorker)) :
    (splitAmong entry workers).map f = splitAmong (fun i w s e => f (entry i w s e)) workers :=
  map_shardLoop f entry _ _ _ _

/-- The workers for whom a workload is split: one, if there are none. -/
def sharedAmong (workers : List (Option TrainingWorker)) : List (Option TrainingWorker) :=
  if workers = [] then [none] else workers

theorem ratios_planShards (workers : List (Option TrainingWorker)) :
    (planShards workers).map (fun s => (s.startRatio, s.endRatio)) =
      ratios (capableWorkers workers) := by
  rw [planShards, map_splitAmong, ratios]

theorem ratios_ddpSpecs (workers : List (Option TrainingWorker)) (workerCount : ℤ) :
    (ddpSpecs workers workerCount).map (fun s => (s.startRatio, s.endRatio)) =
      ratios (rankedWorkers workers workerCount) := by
  rw [ddpSpecs, map_splitAmong, ratios]

theorem ratios_partitionWorkload (workers : List (Option TrainingWorker))
    (totalSamples workloadLen : Option ℕ) :
    (partitionWorkload workers totalSamples workloadLen).map (fun p => (p.startRatio, p.endRatio)) =
      ratios (sharedAmong workers) := by
  unfold partitionWorkload sharedAmong
  split_ifs with h
  · rfl
  · rw [map_splitAmong, ratios]

/-- The number of samples of a part is its length in samples, rounded. -/
theorem sampleCounts_partitionWorkload (workers : List (Option TrainingWorker))
    (totalSamples workloadLen : Option ℕ) :
    (partitionWorkload workers totalSamples workloadLen).map (·.sampleCount) =
      (ratios (sharedAmong workers)).map fun r =>
        roundEven ((r.2 - r.1) * (nSamples workers totalSamples workloadLen : ℚ)) := by
  unfold partitionWorkload sharedAmong
  split_ifs with h
  · have hone : ratios [none] = [(0, 1)] := rfl
    simp [hone, nSamples, h]
  · rw [map_splitAmong, ratios, map_splitAmong]

end Aidars.Training
