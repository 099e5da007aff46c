import Aidars.Models.Job
import Aidars.Store.Rows

/-!
# Rows of jobs

`saveJob` writes the record of a job as a row, with its lists as columns of their own, unless its
threshold is too large for a column, and `loadJob` constructs a record from a row. A job of one
workload that was split comes back as a job of a single machine. Everything else of a valid record
comes back, with its lists in order (`reloadJob_eq_some_iff`).
-/

namespace Aidars

/-- The stored value of a completion policy. -/
def CompletionPolicy.value : CompletionPolicy → String
  | allRequired => "all_required"
  | anySuccess => "any_success"
  | threshold => "threshold"
  | bestEffort => "best_effort"

/-- The stored value of an execution shape. -/
def ExecutionShape.value : ExecutionShape → String
  | singleMachine => "single_machine"
  | taskSplit => "task_split"
  | pipeline => "pipeline"
  | distributedNative => "distributed_native"

namespace Codec

def completionPolicy : Codec CompletionPolicy :=
  enum [.allRequired, .anySuccess, .threshold, .bestEffort] CompletionPolicy.value

def executionShape : Codec ExecutionShape :=
  enum [.singleMachine, .taskSplit, .pipeline, .distributedNative] ExecutionShape.value

@[simp] theorem completionPolicy_reload (p : CompletionPolicy) :
    completionPolicy.reload p = some p := by
  cases p <;> decide +kernel

end Codec

/-- The row of a job. -/
structure JobRow where
  jobId : String
  workloadIdsJson : Json
  completionPolicy : String
  threshold : Option ℤ
  executionShape : String
  requiredWorkerCount : ℕ
  selectedWorkerIdsJson : Option Json
  spareWorkerIdsJson : Option Json
  createdAt : ℚ
  deriving DecidableEq

namespace StateStore

/-- The column of a list of workers: none for an empty list. -/
def workerIdsColumn (ids : Option (List String)) : Option Json :=
  (ids.filter (· ≠ [])).map Codec.str.list.encode

/-- The row of a job. -/
def jobRow (record : JobRecord) (createdAt : ℚ) : JobRow where
  jobId := record.jobId
  workloadIdsJson := Codec.str.list.encode (record.workloadIds.toList.insertionSort (· ≤ ·))
  completionPolicy := record.completionPolicy.value
  threshold := record.threshold
  executionShape := record.executionShape.value
  requiredWorkerCount := record.requiredWorkerCount
  selectedWorkerIdsJson := workerIdsColumn record.selectedWorkerIds
  spareWorkerIdsJson := workerIdsColumn record.spareWorkerIds
  createdAt := createdAt

/-- Save a job, if its threshold fits. -/
def saveJob (record : JobRecord) (createdAt : ℚ) : Option JobRow :=
  if record.threshold.all fitsInt64 then some (jobRow record createdAt) else none

/-- The shape in a column; rows from before shapes were stored have none. -/
def readShape (column : String) : Option ExecutionShape :=
  if column = "" then some .taskSplit else Codec.executionShape.decode (.str column)

/-- Construct the record of a job from its row, with the time of its creation. -/
def rowToJobRecord (row : JobRow) : Option (JobRecord × ℚ) := do
  let workloadIds ← Codec.str.list.decode row.workloadIdsJson
  let selectedWorkerIds ← readColumn Codec.str.list row.selectedWorkerIdsJson
  let spareWorkerIds ← readColumn Codec.str.list row.spareWorkerIdsJson
  let completionPolicy ← Codec.completionPolicy.decode (.str row.completionPolicy)
  let executionShape ← readShape row.executionShape
  let record ← JobRecord.create {
    jobId := row.jobId
    workloadIds := PySet.ofList workloadIds
    completionPolicy
    threshold := row.threshold
    executionShape
    requiredWorkerCount := row.requiredWorkerCount
    selectedWorkerIds
    spareWorkerIds } |>.toOption
  return (record, row.createdAt)

/-- A job that has one workload and is split is restored as a job of a single machine. -/
def restoreShape (record : JobRecord) : JobRecord :=
  if record.executionShape = .taskSplit ∧ record.workloadIds.toList.length = 1 then
    { record with executionShape := .singleMachine }
  else record

/-- The record that is loaded from a row. -/
def loadJob (row : JobRow) : Option (JobRecord × ℚ) :=
  (rowToJobRecord row).map fun (record, createdAt) => (restoreShape record, createdAt)

/-- What is read back of a job. -/
def reloadJob (record : JobRecord) : Option JobRecord :=
  ((saveJob record 0).bind loadJob).map Prod.fst

/-! ## Reading back -/

variable {record record' : JobRecord} {createdAt : ℚ}

/-- The lists of a record in order, and its shape as it is restored. -/
def storedJob (record : JobRecord) : JobRecord :=
  restoreShape { record with
    workloadIds := PySet.ofList (record.workloadIds.toList.insertionSort (· ≤ ·))
    selectedWorkerIds := JobRecord.sortedIds record.selectedWorkerIds
    spareWorkerIds := JobRecord.sortedIds record.spareWorkerIds }

theorem readColumn_workerIdsColumn (ids : Option (List String)) :
    readColumn Codec.str.list (workerIdsColumn ids) = some (ids.filter (· ≠ [])) :=
  readColumn_map_eq_self_iff.2 fun l _ => Codec.list_str_reload l

theorem sortedIds_filter (ids : Option (List String)) :
    JobRecord.sortedIds (ids.filter (· ≠ [])) = JobRecord.sortedIds ids := by
  match ids with
  | none => rfl
  | some [] => rfl
  | some (a :: l) => rfl

theorem length_stored (record : JobRecord) :
    (PySet.ofList (record.workloadIds.toList.insertionSort (· ≤ ·))).toList.length =
      record.workloadIds.toList.length := by
  have hnodup : (record.workloadIds.toList.insertionSort (· ≤ ·)).Nodup :=
    (List.perm_insertionSort _ _).nodup_iff.2 record.workloadIds.nodup
  show (record.workloadIds.toList.insertionSort (· ≤ ·)).dedup.length = _
  rw [hnodup.dedup, List.length_insertionSort]

/-- The record as its row is read, before it is constructed. -/
def readJob (record : JobRecord) : JobRecord :=
  { record with
    workloadIds := PySet.ofList (record.workloadIds.toList.insertionSort (· ≤ ·))
    selectedWorkerIds := record.selectedWorkerIds.filter (· ≠ [])
    spareWorkerIds := record.spareWorkerIds.filter (· ≠ []) }

theorem valid_readJob : (readJob record).Valid ↔ record.Valid := by
  unfold JobRecord.Valid readJob
  dsimp only
  rw [length_stored]

theorem readShape_value (shape : ExecutionShape) : readShape shape.value = some shape := by
  cases shape <;> decide +kernel

theorem rowToJobRecord_jobRow : rowToJobRecord (jobRow record createdAt) =
    (readJob record).create.toOption.map fun record => (record, createdAt) := by
  have hpolicy : Codec.completionPolicy.decode (.str record.completionPolicy.value) =
      some record.completionPolicy := Codec.completionPolicy_reload _
  simp only [rowToJobRecord, jobRow, readColumn_workerIdsColumn, readShape_value, hpolicy,
    Codec.decode_encode, Codec.list_str_reload, Option.bind_eq_bind, Option.bind_some]
  show Option.bind (readJob record).create.toOption _ = _
  cases (readJob record).create.toOption with
  | none => rfl
  | some job => rfl

/-- **A valid job comes back, with its lists in order.** -/
theorem loadJob_jobRow (h : record.Valid) :
    loadJob (jobRow record createdAt) = some (storedJob record, createdAt) := by
  have hcreate := JobRecord.create_eq_ok_iff.2 ⟨valid_readJob.2 h, rfl⟩
  rw [loadJob, rowToJobRecord_jobRow, hcreate]
  simp only [readJob, sortedIds_filter, Except.toOption, Option.map_some]
  rfl

theorem restoreShape_rest (record : JobRecord) :
    restoreShape record =
      { record with executionShape := (restoreShape record).executionShape } := by
  unfold restoreShape
  split_ifs <;> rfl

theorem valid_restoreShape (h : record.Valid) : (restoreShape record).Valid := by
  unfold restoreShape
  split_ifs with hshape
  · obtain ⟨hthreshold, hrest⟩ := h
    rw [hshape.1, if_neg (by decide)] at hrest
    exact ⟨hthreshold, hrest.1, fun _ => hshape.2⟩
  · exact h

theorem valid_storedJob (h : record.Valid) : (storedJob record).Valid := by
  refine valid_restoreShape ?_
  unfold JobRecord.Valid at h ⊢
  rw [length_stored]
  exact h

theorem selectedWorkerIds_storedJob (record : JobRecord) :
    (storedJob record).selectedWorkerIds = JobRecord.sortedIds record.selectedWorkerIds := by
  rw [storedJob, restoreShape_rest]

theorem spareWorkerIds_storedJob (record : JobRecord) :
    (storedJob record).spareWorkerIds = JobRecord.sortedIds record.spareWorkerIds := by
  rw [storedJob, restoreShape_rest]

theorem reloadJob_eq_some_iff : reloadJob record = some record' ↔
    record.threshold.all fitsInt64 = true ∧ record.Valid ∧ record' = storedJob record := by
  unfold reloadJob saveJob
  split_ifs with hfits
  · rw [Option.bind_some, and_iff_right hfits]
    constructor
    · intro h
      have hvalid : record.Valid := by
        by_contra hnot
        rw [loadJob, rowToJobRecord_jobRow] at h
        cases hcreate : (readJob record).create with
        | ok job => exact hnot (valid_readJob.1 (JobRecord.create_eq_ok_iff.1 hcreate).1)
        | error e =>
          rw [hcreate] at h
          cases h
      refine ⟨hvalid, ?_⟩
      rw [loadJob_jobRow hvalid] at h
      exact (Option.some.inj h).symm
    · rintro ⟨hvalid, rfl⟩
      rw [loadJob_jobRow hvalid]
      rfl
  · exact iff_of_false nofun fun h => hfits h.1

end StateStore

end Aidars
