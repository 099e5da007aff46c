import Aidars.Models.Job
import Aidars.Models.Workload

/-!
# Job aggregates

The state of a job is never stored: `getAggregate` counts the states of its workloads and derives
the state from the counts. A workload that is not registered counts as pending.

`isTerminal_aggregateOf_iff` says when a job is terminal: it has workloads, and all of them are. The
constructor of a record asks for a threshold that is not zero. `aggregates_iff` states that the laws
of an aggregate hold but for a negative threshold, which a job meets whose workloads have all
failed.
-/

namespace Aidars

/-- Derived state of a job. -/
inductive JobState
  | submitted
  | running
  | partiallyCompleted
  | completed
  | failed
  | cancelled
  deriving DecidableEq, Repr

/-- A summary of a job's workloads. -/
structure JobAggregate where
  jobId : String
  total : ℕ
  completed : ℕ
  failed : ℕ
  pending : ℕ
  running : ℕ
  state : JobState
  outputAssetHashes : Finset String := ∅
  deriving DecidableEq

/-- The job is done. -/
def JobAggregate.isTerminal (agg : JobAggregate) : Bool :=
  agg.state = .completed || agg.state = .failed || agg.state = .partiallyCompleted

/-- How a workload counts for its job. -/
inductive WorkloadBucket
  | completed
  | failed
  | pending
  | running
  deriving DecidableEq

/-- The bucket of a state. -/
def WorkloadState.bucket : WorkloadState → WorkloadBucket
  | .completed => .completed
  | .failed | .unschedulable | .cancelled => .failed
  | .placed | .migrating | .executing | .syncingAssets | .ingesting | .cancellationRequested =>
    .running
  | .submitted | .validating | .placing | .ready | .timeout => .pending

namespace JobRegistry

variable (workloads : Dict String WorkloadRecord)

/-- The bucket of a workload; one that is not registered is pending. -/
def bucketOf (w : String) : WorkloadBucket :=
  ((workloads.get? w).map (·.state.bucket)).getD .pending

/-- The outputs that a workload adds to its job. -/
def outputsOf (w : String) : Finset String :=
  match workloads.get? w with
  | some record =>
    if record.state = .completed then
      (record.executionResult.map (·.outputAssetHashes)).getD ∅
    else ∅
  | none => ∅

/-- Derive the state of a job from the counts. -/
def deriveState (job : JobRecord) (total completed failed pending running : ℕ) : JobState :=
  if total = 0 then .submitted
  else if 0 < pending + running then
    if completed = 0 ∧ failed = 0 ∧ running = 0 then .submitted else .running
  else
    match job.completionPolicy with
    | .allRequired => if failed = 0 then .completed else .failed
    | .anySuccess => if 0 < completed then .completed else .failed
    | .threshold => if job.threshold.getD 0 ≤ completed then .completed else .failed
    | .bestEffort =>
      if completed = total then .completed
      else if 0 < completed then .partiallyCompleted
      else .failed

/-- The aggregate of a job. -/
def aggregateOf (job : JobRecord) : JobAggregate :=
  let buckets := job.workloadIds.toList.map (bucketOf workloads)
  let total := buckets.length
  let completed := buckets.count .completed
  let failed := buckets.count .failed
  let pending := buckets.count .pending
  let running := buckets.count .running
  { jobId := job.jobId, total, completed, failed, pending, running
    state := deriveState job total completed failed pending running
    outputAssetHashes := job.workloadIds.toList.foldl (fun acc w => acc ∪ outputsOf workloads w) ∅ }

/-- Derive a job's current state from the records of its workloads. -/
def getAggregate (jobs : Dict String JobRecord) (jobId : String) : Option JobAggregate :=
  (jobs.get? jobId).map (aggregateOf workloads)

variable {workloads} {job : JobRecord}

theorem bucketOf_done_iff {w : String} :
    bucketOf workloads w = .completed ∨ bucketOf workloads w = .failed ↔
      ∃ record, workloads.get? w = some record ∧ record.state.isTerminal = true := by
  unfold bucketOf
  cases hw : workloads.get? w with
  | none => simp
  | some record =>
    rw [Option.map_some, Option.getD_some]
    simp only [Option.some.injEq, exists_eq_left']
    cases record.state <;> decide

/-- A derived state is final when there are workloads and none is pending or running. -/
theorem deriveState_terminal_iff {total completed failed pending running : ℕ} :
    (deriveState job total completed failed pending running = .completed ∨
      deriveState job total completed failed pending running = .failed ∨
      deriveState job total completed failed pending running = .partiallyCompleted) ↔
      total ≠ 0 ∧ pending = 0 ∧ running = 0 := by
  unfold deriveState
  by_cases htotal : total = 0
  · rw [if_pos htotal]
    simp [htotal]
  · rw [if_neg htotal]
    by_cases hactive : 0 < pending + running
    · rw [if_pos hactive]
      have hnot : ¬ (total ≠ 0 ∧ pending = 0 ∧ running = 0) := by omega
      refine iff_of_false ?_ hnot
      split_ifs <;> decide
    · rw [if_neg hactive]
      have hdone : total ≠ 0 ∧ pending = 0 ∧ running = 0 := ⟨htotal, by omega, by omega⟩
      refine iff_of_true ?_ hdone
      cases job.completionPolicy <;> dsimp only <;> split_ifs <;> decide

/-- **A job is terminal when it has workloads and all of them are registered and terminal.** -/
theorem isTerminal_aggregateOf_iff : (aggregateOf workloads job).isTerminal = true ↔
    job.workloadIds ≠ ∅ ∧ ∀ w ∈ job.workloadIds,
      ∃ record, workloads.get? w = some record ∧ record.state.isTerminal = true := by
  have hstate : (aggregateOf workloads job).isTerminal = true ↔
      (aggregateOf workloads job).state = .completed ∨
      (aggregateOf workloads job).state = .failed ∨
      (aggregateOf workloads job).state = .partiallyCompleted := by
    unfold JobAggregate.isTerminal
    simp [or_assoc]
  rw [hstate]
  unfold aggregateOf
  dsimp only
  rw [deriveState_terminal_iff, List.length_map, List.count_eq_zero, List.count_eq_zero]
  refine and_congr ?_ ?_
  · rw [Ne, List.length_eq_zero_iff, Ne, PySet.eq_empty_iff, List.eq_nil_iff_forall_not_mem]
    rfl
  · constructor
    · rintro ⟨hpending, hrunning⟩ w hw
      rw [← bucketOf_done_iff]
      have hp : bucketOf workloads w ≠ .pending := fun h => hpending (h ▸ List.mem_map_of_mem hw)
      have hr : bucketOf workloads w ≠ .running := fun h => hrunning (h ▸ List.mem_map_of_mem hw)
      revert hp hr
      cases bucketOf workloads w <;> simp
    · intro h
      constructor <;> intro hmem <;> obtain ⟨w, hw, hb⟩ := List.mem_map.1 hmem <;>
        have hdone := bucketOf_done_iff.2 (h w hw) <;> rw [hb] at hdone <;>
        rcases hdone with hdone | hdone <;> cases hdone

/-! ## Policies -/

/-- The policy of a job is met by its counts. -/
def PolicyMet (job : JobRecord) (agg : JobAggregate) : Prop :=
  match job.completionPolicy with
  | .allRequired => agg.failed = 0
  | .anySuccess => 1 ≤ agg.completed
  | .threshold => job.threshold.getD 0 ≤ agg.completed
  | .bestEffort => agg.completed = agg.total

/-- A workload is registered and terminal. -/
def Done (workloads : Dict String WorkloadRecord) (w : String) : Prop :=
  ∃ record, workloads.get? w = some record ∧ record.state.isTerminal = true

/-- The buckets of the workloads of a job. -/
def bucketsOf (workloads : Dict String WorkloadRecord) (job : JobRecord) : List WorkloadBucket :=
  job.workloadIds.toList.map (bucketOf workloads)

/-- One failed workload of a job is replaced by a completed one. -/
def Replaces (workloads workloads' : Dict String WorkloadRecord) (job job' : JobRecord) : Prop :=
  job'.completionPolicy = job.completionPolicy ∧ job'.threshold = job.threshold ∧
    ∃ rest, (bucketsOf workloads job).Perm (.failed :: rest) ∧
      (bucketsOf workloads' job').Perm (.completed :: rest)

/-- What an aggregate says of the workloads of a job. -/
structure Aggregates (workloads : Dict String WorkloadRecord) (job : JobRecord)
    (agg : JobAggregate) : Prop where
  total : agg.total = job.workloadIds.toList.length
  counted : agg.completed + agg.failed + agg.pending + agg.running = agg.total
  active : agg.state = .submitted ∨ agg.state = .running ↔
    job.workloadIds = ∅ ∨ ∃ w ∈ job.workloadIds, ¬ Done workloads w
  completed : agg.state = .completed → 1 ≤ agg.completed ∧ PolicyMet job agg
  replaced : agg.state = .completed → ∀ workloads' job', Replaces workloads workloads' job job' →
    (aggregateOf workloads' job').state = .completed

/-- All workloads of a job have failed, and its threshold is negative. -/
def NegativeThreshold (workloads : Dict String WorkloadRecord) (job : JobRecord) : Prop :=
  job.completionPolicy = .threshold ∧ job.threshold.getD 0 < 0 ∧ job.workloadIds ≠ ∅ ∧
    ∀ w ∈ job.workloadIds, bucketOf workloads w = .failed

theorem total_aggregateOf : (aggregateOf workloads job).total = (bucketsOf workloads job).length :=
  rfl

theorem completed_aggregateOf :
    (aggregateOf workloads job).completed = (bucketsOf workloads job).count .completed := rfl

theorem failed_aggregateOf :
    (aggregateOf workloads job).failed = (bucketsOf workloads job).count .failed := rfl

theorem pending_aggregateOf :
    (aggregateOf workloads job).pending = (bucketsOf workloads job).count .pending := rfl

theorem running_aggregateOf :
    (aggregateOf workloads job).running = (bucketsOf workloads job).count .running := rfl

/-- Every bucket is counted. -/
theorem count_buckets (l : List WorkloadBucket) :
    l.count .completed + l.count .failed + l.count .pending + l.count .running = l.length := by
  induction l with
  | nil => rfl
  | cons b l ih =>
    simp only [List.count_cons, List.length_cons]
    cases b <;> simp <;> omega

theorem state_eq_completed_iff : (aggregateOf workloads job).state = .completed ↔
    (aggregateOf workloads job).total ≠ 0 ∧ (aggregateOf workloads job).pending = 0 ∧
      (aggregateOf workloads job).running = 0 ∧ PolicyMet job (aggregateOf workloads job) := by
  unfold aggregateOf deriveState
  dsimp only
  by_cases htotal : (job.workloadIds.toList.map (bucketOf workloads)).length = 0
  · simp [htotal]
  · rw [if_neg htotal]
    by_cases hactive : 0 < (job.workloadIds.toList.map (bucketOf workloads)).count .pending +
        (job.workloadIds.toList.map (bucketOf workloads)).count .running
    · rw [if_pos hactive]
      refine iff_of_false ?_ (by omega)
      split_ifs <;> decide
    · rw [if_neg hactive]
      have hdone : (job.workloadIds.toList.map (bucketOf workloads)).count .pending = 0 ∧
          (job.workloadIds.toList.map (bucketOf workloads)).count .running = 0 := by omega
      unfold PolicyMet
      cases job.completionPolicy <;> dsimp only <;> split_ifs <;> simp_all

theorem active_iff : (aggregateOf workloads job).state = .submitted ∨
    (aggregateOf workloads job).state = .running ↔
      job.workloadIds = ∅ ∨ ∃ w ∈ job.workloadIds, ¬ Done workloads w := by
  have hnot : (aggregateOf workloads job).state = .submitted ∨
      (aggregateOf workloads job).state = .running ↔
      ¬ (aggregateOf workloads job).isTerminal = true := by
    have hcancelled : (aggregateOf workloads job).state ≠ .cancelled := by
      unfold aggregateOf deriveState
      cases job.completionPolicy <;> dsimp only <;> split_ifs <;> decide
    unfold JobAggregate.isTerminal
    revert hcancelled
    cases (aggregateOf workloads job).state <;> decide
  rw [hnot, isTerminal_aggregateOf_iff]
  simp only [Done, not_and_or, not_forall, not_not, exists_prop]

/-- A complete job has a completed workload, unless its threshold is negative and all have
failed. -/
theorem completed_pos_iff (hvalid : job.Valid)
    (h : (aggregateOf workloads job).state = .completed) :
    1 ≤ (aggregateOf workloads job).completed ↔ ¬ NegativeThreshold workloads job := by
  obtain ⟨htotal, hpending, hrunning, hpolicy⟩ := state_eq_completed_iff.1 h
  have hcount := count_buckets (bucketsOf workloads job)
  have hne : job.workloadIds ≠ ∅ := by
    intro he
    refine htotal ?_
    rw [total_aggregateOf, bucketsOf, he]
    rfl
  constructor
  · rintro hpos ⟨-, -, -, hfailed⟩
    obtain ⟨w, hw, hb⟩ := List.mem_map.1 (List.count_pos_iff.1 hpos)
    rw [hfailed w hw] at hb
    cases hb
  · intro hnot
    by_contra hzero
    have hcompleted : (aggregateOf workloads job).completed = 0 := by omega
    -- without a completed workload all have failed
    have hfailed : ∀ w ∈ job.workloadIds, bucketOf workloads w = .failed := by
      intro w hw
      have hmem : bucketOf workloads w ∈ bucketsOf workloads job := List.mem_map_of_mem hw
      have h₁ := List.count_eq_zero.1 hcompleted
      have h₂ := List.count_eq_zero.1 hpending
      have h₃ := List.count_eq_zero.1 hrunning
      cases hb : bucketOf workloads w with
      | failed => rfl
      | completed => exact absurd (hb ▸ hmem) h₁
      | pending => exact absurd (hb ▸ hmem) h₂
      | running => exact absurd (hb ▸ hmem) h₃
    have hall : (aggregateOf workloads job).failed = (aggregateOf workloads job).total := by
      rw [completed_aggregateOf] at hcompleted
      rw [pending_aggregateOf] at hpending
      rw [running_aggregateOf] at hrunning
      rw [failed_aggregateOf, total_aggregateOf]
      omega
    unfold PolicyMet at hpolicy
    cases hp : job.completionPolicy with
    | allRequired =>
      rw [hp] at hpolicy
      dsimp only at hpolicy
      omega
    | anySuccess =>
      rw [hp] at hpolicy
      dsimp only at hpolicy
      omega
    | bestEffort =>
      rw [hp] at hpolicy
      dsimp only at hpolicy
      omega
    | threshold =>
      rw [hp] at hpolicy
      dsimp only at hpolicy
      rw [hcompleted] at hpolicy
      have hzero : job.threshold.getD 0 ≠ 0 := fun h0 => hvalid.1 ⟨hp, h0⟩
      exact hnot ⟨hp, lt_of_le_of_ne hpolicy hzero, hne, hfailed⟩

theorem completed_of_replaces {workloads' : Dict String WorkloadRecord} {job' : JobRecord}
    (h : (aggregateOf workloads job).state = .completed)
    (hr : Replaces workloads workloads' job job') :
    (aggregateOf workloads' job').state = .completed := by
  obtain ⟨htotal, hpending, hrunning, hpolicy⟩ := state_eq_completed_iff.1 h
  obtain ⟨hsame, hthreshold, rest, hold, hnew⟩ := hr
  have hcounts : ∀ b, (bucketsOf workloads job).count b = (WorkloadBucket.failed :: rest).count b :=
    fun b => hold.count_eq b
  have hcounts' : ∀ b, (bucketsOf workloads' job').count b =
      (WorkloadBucket.completed :: rest).count b := fun b => hnew.count_eq b
  have hlength : (bucketsOf workloads' job').length = (bucketsOf workloads job).length :=
    hnew.length_eq.trans hold.length_eq.symm
  rw [state_eq_completed_iff]
  simp only [PolicyMet, total_aggregateOf, completed_aggregateOf, failed_aggregateOf,
    pending_aggregateOf, running_aggregateOf, hcounts, hcounts', hlength, hsame, hthreshold,
    List.count_cons_self, List.count_cons_of_ne, ne_eq, reduceCtorEq, not_false_eq_true] at *
  refine ⟨htotal, hpending, hrunning, ?_⟩
  cases hp : job.completionPolicy with
  | allRequired =>
    rw [hp] at hpolicy
    exact hpolicy.elim
  | anySuccess =>
    rw [hp] at hpolicy
    dsimp only at hpolicy ⊢
    omega
  | threshold =>
    rw [hp] at hpolicy
    dsimp only at hpolicy ⊢
    omega
  | bestEffort =>
    rw [hp] at hpolicy
    dsimp only at hpolicy ⊢
    have hle := List.count_le_length (a := WorkloadBucket.completed) (l := rest)
    have hl := hold.length_eq
    rw [List.length_cons] at hl
    omega

/-- **Job aggregation.** The counts of a job that the constructor accepts add up, its state is
derived from them, and it is complete only with a completed workload and as its policy says, if and
only if it is not the case that its threshold is negative and all of its workloads have failed. -/
theorem aggregates_iff {request : JobRecord} (hcreate : request.create = .ok job) :
    Aggregates workloads job (aggregateOf workloads job) ↔ ¬ NegativeThreshold workloads job := by
  have hvalid := JobRecord.Valid.of_create hcreate
  constructor
  · rintro h hnegative
    obtain ⟨hp, hlt, hne, hfailed⟩ := hnegative
    have hall : bucketsOf workloads job = List.replicate job.workloadIds.toList.length .failed := by
      refine List.eq_replicate_iff.2 ⟨List.length_map _, fun b hb => ?_⟩
      obtain ⟨w, hw, rfl⟩ := List.mem_map.1 hb
      exact hfailed w hw
    have hstate : (aggregateOf workloads job).state = .completed := by
      rw [state_eq_completed_iff]
      simp only [PolicyMet, total_aggregateOf, completed_aggregateOf, pending_aggregateOf,
        running_aggregateOf, hp, hall, List.count_replicate, List.length_replicate]
      refine ⟨fun he => hne ?_, rfl, rfl, hlt.le⟩
      exact PySet.eq_empty_iff.2 fun w hw => List.ne_nil_of_mem hw (List.length_eq_zero_iff.1 he)
    exact (completed_pos_iff hvalid hstate).1 (h.completed hstate).1 ⟨hp, hlt, hne, hfailed⟩
  · intro hnot
    exact ⟨List.length_map _, count_buckets _, active_iff,
      fun h => ⟨(completed_pos_iff hvalid h).2 hnot, (state_eq_completed_iff.1 h).2.2.2⟩,
      fun h _ _ hr => completed_of_replaces h hr⟩

/-- A job of one workload that asks for one success. -/
def sampleJob (threshold : ℤ) : JobRecord where
  jobId := "j"
  workloadIds := PySet.ofList ["w"]
  completionPolicy := .threshold
  threshold := some threshold

/-- The workload of the job has failed. -/
def failedWorkloads : Dict String WorkloadRecord :=
  (∅ : Dict String WorkloadRecord).set "w"
    { spec := { workloadId := "w", taskType := "compute" }, state := .failed }

/-- A threshold of one is not met by a failure. -/
theorem aggregates_failure :
    (sampleJob 1).create = .ok (sampleJob 1) ∧
      Aggregates failedWorkloads (sampleJob 1) (aggregateOf failedWorkloads (sampleJob 1)) := by
  refine ⟨rfl, (@aggregates_iff _ _ (sampleJob 1) rfl).2 ?_⟩
  rintro ⟨-, hlt, -⟩
  exact absurd hlt (by decide)

/-- A negative threshold is accepted, and is met by a failure. -/
theorem failure_completed :
    ¬ ∀ (request job : JobRecord) (workloads : Dict String WorkloadRecord),
      request.create = .ok job → Aggregates workloads job (aggregateOf workloads job) := by
  intro hclaim
  have h := hclaim (sampleJob (-1)) (sampleJob (-1)) failedWorkloads rfl
  have hpos := (h.completed (by decide +kernel)).1
  exact absurd hpos (by decide +kernel)

end JobRegistry

end Aidars
