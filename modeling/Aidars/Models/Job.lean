import Aidars.Foundations.Collections
import Mathlib.Data.List.Sort
import Mathlib.Data.String.Basic

/-!
# Jobs

A `JobRecord` groups workloads and says how they are placed: the execution shape, the number of
workers of a group, the workers the job is confined to, and spare workers. Constructing a record
checks these (`JobRecord.create`); `maybePromoteSpareWorker` moves a spare into the confinement when
too few of the selected workers are left (`maybePromoteSpareWorker_cases`).
-/

namespace Aidars

/-- When a job counts as complete. -/
inductive CompletionPolicy
  | allRequired
  | anySuccess
  | threshold
  | bestEffort
  deriving DecidableEq, Repr

/-- Execution arrangement of a job. -/
inductive ExecutionShape
  | singleMachine
  | taskSplit
  | pipeline
  | distributedNative
  deriving DecidableEq, Repr

/-- Identity, membership and placement of a job. -/
structure JobRecord where
  jobId : String
  workloadIds : PySet String
  completionPolicy : CompletionPolicy := .allRequired
  threshold : Option ℤ := none
  executionShape : ExecutionShape := .taskSplit
  requiredWorkerCount : ℕ := 1
  selectedWorkerIds : Option (List String) := none
  spareWorkerIds : Option (List String) := none
  deriving DecidableEq

/-- Why a job record is rejected. -/
inductive JobError
  | thresholdRequired
  | distributedNativeShape
  | workerCountOnlyForDistributedNative
  | singleMachineShape
  deriving DecidableEq

namespace JobRecord

/-- A list of worker identifiers as a record stores it: sorted, and none when it is empty. -/
def sortedIds (ids : Option (List String)) : Option (List String) :=
  match ids with
  | none | some [] => none
  | some ids => some (ids.insertionSort (· ≤ ·))

/-- Construct a job record. -/
def create (job : JobRecord) : Except JobError JobRecord :=
  if job.completionPolicy = .threshold ∧ job.threshold.getD 0 = 0 then .error .thresholdRequired
  else if job.executionShape = .distributedNative then
    if job.workloadIds.toList.length ≠ 1 ∨ job.requiredWorkerCount < 2 ∨
      64 < job.requiredWorkerCount
    then .error .distributedNativeShape
    else .ok { job with
      selectedWorkerIds := sortedIds job.selectedWorkerIds
      spareWorkerIds := sortedIds job.spareWorkerIds }
  else if job.requiredWorkerCount ≠ 1 then .error .workerCountOnlyForDistributedNative
  else if job.executionShape = .singleMachine ∧ job.workloadIds.toList.length ≠ 1 then
    .error .singleMachineShape
  else .ok { job with
    selectedWorkerIds := sortedIds job.selectedWorkerIds
    spareWorkerIds := sortedIds job.spareWorkerIds }

/-- Promote a spare worker when fewer than the required number of selected workers are left.
Returns the changed job and the changed confinement. -/
def maybePromoteSpareWorker (job : JobRecord) (selected exhausted : PySet String)
    (requiredWorkerCount : ℕ) : JobRecord × PySet String :=
  match job.spareWorkerIds with
  | none | some [] => (job, selected)
  | some spares =>
    if requiredWorkerCount ≤ (selected.toList.filter (· ∉ exhausted)).length then (job, selected)
    else
      match spares.filter (· ∉ exhausted) with
      | [] => (job, selected)
      | promoted :: rest =>
        ({ job with
            spareWorkerIds := some rest
            selectedWorkerIds := job.selectedWorkerIds.map fun ids =>
              if promoted ∈ ids then ids else ids ++ [promoted] },
          selected.insert promoted)

/-! ## Promotion and construction -/

/-- The workers that a job is confined to. -/
def selectedIds (job : JobRecord) : List String := job.selectedWorkerIds.getD []

/-- The spare workers of a job. -/
def spareIds (job : JobRecord) : List String := job.spareWorkerIds.getD []

variable {job job' : JobRecord} {selected exhausted : PySet String} {n : ℕ}

theorem selectedWorkerIds_eq (h : job.selectedIds ≠ []) :
    job.selectedWorkerIds = some job.selectedIds := by
  unfold selectedIds at h ⊢
  cases hs : job.selectedWorkerIds with
  | none =>
    rw [hs] at h
    exact absurd rfl h
  | some ids => rfl

/-- How a promotion goes: nothing changes, or the first spare that is not excluded is moved into the
confinement, and the excluded spares are dropped. -/
theorem maybePromoteSpareWorker_cases (job : JobRecord) (selected exhausted : PySet String)
    (n : ℕ) :
    (job.maybePromoteSpareWorker selected exhausted n = (job, selected) ∧
      (n ≤ (selected.toList.filter (· ∉ exhausted)).length ∨
        ∀ x ∈ job.spareIds, x ∈ exhausted)) ∨
    ∃ promoted rest,
      (selected.toList.filter (· ∉ exhausted)).length < n ∧
      job.spareIds.filter (· ∉ exhausted) = promoted :: rest ∧
      job.maybePromoteSpareWorker selected exhausted n =
        ({ job with
            spareWorkerIds := some rest
            selectedWorkerIds := job.selectedWorkerIds.map fun ids =>
              if promoted ∈ ids then ids else ids ++ [promoted] },
          selected.insert promoted) := by
  unfold maybePromoteSpareWorker spareIds
  split
  · rename_i hnone
    rw [hnone]
    exact .inl ⟨rfl, .inr nofun⟩
  · rename_i hnil
    rw [hnil]
    exact .inl ⟨rfl, .inr nofun⟩
  · rename_i spares _ hspares
    rw [hspares, Option.getD_some]
    split_ifs with hn
    · exact .inl ⟨rfl, .inl hn⟩
    · split
      · rename_i hnil
        refine .inl ⟨rfl, .inr fun x hx => ?_⟩
        have := List.filter_eq_nil_iff.1 hnil x hx
        simpa using this
      · rename_i promoted rest hcons
        exact .inr ⟨promoted, rest, by omega, hcons, rfl⟩

theorem maybePromoteSpareWorker_rest (job : JobRecord) (selected exhausted : PySet String) (n : ℕ) :
    ∃ sel spare, (job.maybePromoteSpareWorker selected exhausted n).1 =
      { job with selectedWorkerIds := sel, spareWorkerIds := spare } := by
  rcases maybePromoteSpareWorker_cases job selected exhausted n with ⟨h, -⟩ | ⟨p, rest, -, -, h⟩
  · exact ⟨job.selectedWorkerIds, job.spareWorkerIds, by rw [h]⟩
  · exact ⟨_, _, by rw [h]⟩

theorem mem_sortedIds {ids : Option (List String)} {x : String} :
    x ∈ (sortedIds ids).getD [] ↔ x ∈ ids.getD [] := by
  unfold sortedIds
  split
  · rfl
  · rfl
  · exact List.mem_insertionSort _

theorem nodup_sortedIds {ids : Option (List String)} :
    ((sortedIds ids).getD []).Nodup ↔ (ids.getD []).Nodup := by
  unfold sortedIds
  split
  · rfl
  · rfl
  · exact (List.perm_insertionSort _ _).nodup_iff

theorem pairwise_sortedIds (ids : Option (List String)) :
    ((sortedIds ids).getD []).Pairwise (· ≤ ·) := by
  unfold sortedIds
  split
  · exact List.Pairwise.nil
  · exact List.Pairwise.nil
  · exact List.pairwise_insertionSort (· ≤ ·) _

theorem sortedIds_ne_some_nil (ids : Option (List String)) : sortedIds ids ≠ some [] := by
  unfold sortedIds
  split
  · nofun
  · nofun
  · rename_i ids hne
    intro h
    have hlen := congrArg List.length (Option.some.inj h)
    rw [List.length_insertionSort] at hlen
    exact hne (List.length_eq_zero_iff.1 hlen)

/-- What constructing a record checks. -/
def Valid (job : JobRecord) : Prop :=
  ¬ (job.completionPolicy = .threshold ∧ job.threshold.getD 0 = 0) ∧
    if job.executionShape = .distributedNative then
      job.workloadIds.toList.length = 1 ∧ 2 ≤ job.requiredWorkerCount ∧ job.requiredWorkerCount ≤ 64
    else job.requiredWorkerCount = 1 ∧
      (job.executionShape = .singleMachine → job.workloadIds.toList.length = 1)

/-- **A record is accepted when it is valid, and its worker lists are stored in order.** -/
theorem create_eq_ok_iff : job.create = .ok job' ↔ job.Valid ∧ job' = { job with
    selectedWorkerIds := sortedIds job.selectedWorkerIds
    spareWorkerIds := sortedIds job.spareWorkerIds } := by
  unfold create Valid
  by_cases hthreshold : job.completionPolicy = .threshold ∧ job.threshold.getD 0 = 0
  · simp [hthreshold]
  · rw [if_neg hthreshold]
    by_cases hshape : job.executionShape = .distributedNative
    · rw [if_pos hshape, if_pos hshape]
      split_ifs with hsize
      · simp only [false_iff]
        rintro ⟨⟨-, hok⟩, -⟩
        omega
      · constructor
        · intro h
          exact ⟨⟨hthreshold, by omega⟩, (Except.ok.inj h).symm⟩
        · rintro ⟨-, rfl⟩
          rfl
    · rw [if_neg hshape, if_neg hshape]
      split_ifs with hcount hsingle
      · simp only [false_iff]
        exact fun h => hcount h.1.2.1
      · simp only [false_iff]
        exact fun h => hsingle.2 (h.1.2.2 hsingle.1)
      · constructor
        · intro h
          refine ⟨⟨hthreshold, not_not.1 hcount, fun hs => ?_⟩, (Except.ok.inj h).symm⟩
          exact not_not.1 fun hne => hsingle ⟨hs, hne⟩
        · rintro ⟨-, rfl⟩
          rfl

theorem Valid.of_create (h : job.create = .ok job') : job'.Valid := by
  obtain ⟨hv, rfl⟩ := create_eq_ok_iff.1 h
  exact hv

theorem valid_maybePromoteSpareWorker (h : job.Valid) :
    (job.maybePromoteSpareWorker selected exhausted n).1.Valid := by
  obtain ⟨sel, spare, he⟩ := maybePromoteSpareWorker_rest job selected exhausted n
  rw [he]
  exact h

end JobRecord

end Aidars
