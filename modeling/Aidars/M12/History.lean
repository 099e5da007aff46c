import Aidars.Attempt.Timed
import Aidars.Foundations.Ranking
import Aidars.Models.Validation

/-!
# Observations of attempts

The projection of the ledgers of workloads and attempts to observations. It looks at one attempt
with its workload, and rates it: a success or a failure whose record is consistent is valid, a
checkpoint, a lost and an unfinished attempt are censored, and what is inconsistent is invalid.

A timestamp is accepted if it is positive and not later than the reading of the clock. An
observation depends on the clock through its own timestamps only (`observe_congr`).
-/

namespace Aidars.M12

/-! ## Observations -/

/-- How good an observation is. -/
inductive DataQualityState
  | valid
  | invalid
  | censored
  deriving DecidableEq

/-- How an attempt ended. -/
inductive OutcomeSemantics
  | success
  | failure
  | lost
  | checkpointed
  | incomplete
  deriving DecidableEq

/-- What a workload asked for. -/
structure RequestedResources where
  cpuCores : ℕ
  ramBytes : ℕ
  requiresGpu : Bool
  vramBytes : ℕ
  gpuVendor : Option String
  gpuModel : Option String
  deriving DecidableEq

/-- The policy fields of a workload. -/
structure PolicyContext where
  priority : ℕ
  deadlineAtUtc : Option PyFloat
  affinityGroupId : Option String
  affinityMode : AffinityMode
  affinityHard : Bool
  deriving DecidableEq

/-- The placement of an attempt. -/
structure PlacementContext where
  decisionTimestampUtc : PyFloat
  selectedWorkerId : String
  placementScore : PyFloat
  scoreBreakdown : Dict String PyFloat
  m7RankingAdjustments : Dict String PyFloat
  selectedCandidateExplanation : Dict String Json
  localityDetails : Dict String Json
  deadlineDetails : Dict String Json
  deriving DecidableEq

/-- An observation of an attempt. -/
structure HistoricalObservation where
  observationId : Option String
  dataQuality : DataQualityState
  validationErrors : List String
  observedAtUtc : Option ℚ
  workloadId : Option String
  attemptId : Option String
  attemptNumber : Option ℕ
  taskType : Option String
  workerId : Option String
  requestedResources : Option RequestedResources
  submittedAtUtc : Option ℚ
  queuedAtUtc : Option ℚ
  assignedAtUtc : Option ℚ
  startedAtUtc : Option ℚ
  finishedAtUtc : Option ℚ
  durationSeconds : Option ℚ
  outcome : OutcomeSemantics
  failureCategory : Option FailureCategory
  failureReason : Option String
  retryCount : ℕ
  wasCheckpointed : Bool
  policyContext : Option PolicyContext
  placementContext : Option PlacementContext
  deriving DecidableEq

/-- A workload of the ledger. -/
structure LedgerWorkload where
  spec : WorkloadSpec
  submittedAt : ℚ
  deriving DecidableEq

/-! ## Checks -/

/-- A positive reading that is not later than now. -/
def validTimestamp (now value : ℚ) : Bool := 0 < value && value ≤ now

/-- The reading, if it is valid. -/
def timestampOrNone (valid : ℚ → Bool) (value : Option ℚ) : Option ℚ := value.filter valid

/-- A text that is not empty. -/
def nonEmpty (s : String) : Option String := if s = "" then none else some s

/-- One error, if there is one. -/
def flag (wrong : Bool) (error : String) : List String := if wrong then [error] else []

/-- Errors of the identity of an attempt. -/
def identityErrors (duplicate : Bool) (a : AttemptRecord) : List String :=
  flag (a.workloadId = "") "MISSING_WORKLOAD_ID" ++ flag (a.attemptId = "") "MISSING_ATTEMPT_ID" ++
    (if a.attemptNumber < 1 then ["INVALID_ATTEMPT_NUMBER"]
      else flag (a.attemptId ≠ makeAttemptId a.workloadId a.attemptNumber)
        "ATTEMPT_IDENTITY_MISMATCH") ++
    flag duplicate "DUPLICATE_ATTEMPT_IDENTITY"

/-- Errors of the workload of an attempt. -/
def workloadErrors (valid : ℚ → Bool) : Option LedgerWorkload → List String
  | none => ["MISSING_WORKLOAD_SPEC"]
  | some w => flag (strip w.spec.taskType.toList = []) "MISSING_TASK_TYPE" ++
      flag (!valid w.submittedAt) "INVALID_SUBMITTED_TIMESTAMP"

/-- The check of the next reading of a timeline; `previous` is the last one in order. -/
def timelineStep (valid : ℚ → Bool) (acc : List String × Option ℚ)
    (entry : String × Option ℚ) : List String × Option ℚ :=
  match entry.2 with
  | none => acc
  | some value =>
    if !valid value then (acc.1 ++ ["INVALID_" ++ entry.1 ++ "_TIMESTAMP"], acc.2)
    else if acc.2.any (value < ·) then (acc.1 ++ ["TIMESTAMP_ORDER_INVALID"], acc.2)
    else (acc.1, some value)

/-- Errors of the clock readings of an attempt. -/
def timelineErrors (valid : ℚ → Bool) (t : AttemptTimes) : List String :=
  flag (!valid t.queuedAt) "INVALID_QUEUED_TIMESTAMP" ++
    ([("ASSIGNED", t.assignedAt), ("STARTED", t.startedAt), ("FINISHED", t.finishedAt)].foldl
      (timelineStep valid) ([], (some t.queuedAt).filter valid)).1

/-- The duration of a result that is finite and not negative. -/
def resultDuration (result : WorkloadExecutionResult) : Option ℚ :=
  match result.executionDurationSeconds with
  | .finite q => if q < 0 then none else some q
  | _ => none

/-- Errors of an attempt that has ended. -/
def terminalErrors (a : TimedAttempt) : List String :=
  if a.record.status.isTerminal then
    flag a.times.finishedAt.isNone "TERMINAL_ATTEMPT_MISSING_FINISHED_TIMESTAMP" ++
      flag a.record.workerId.isNone "TERMINAL_ATTEMPT_MISSING_WORKER_ID"
  else []

/-- Errors of the result of an attempt. -/
def resultErrors (a : AttemptRecord) : List String :=
  match a.executionResult with
  | none => []
  | some result =>
    flag (resultDuration result).isNone "INVALID_EXECUTION_DURATION" ++
      flag (result.workloadId ≠ a.workloadId) "RESULT_WORKLOAD_ID_MISMATCH" ++
      flag ((a.workerId.bind nonEmpty).any (result.workerId ≠ ·)) "RESULT_WORKER_ID_MISMATCH"

/-- The duration of an attempt. -/
def attemptDuration (a : AttemptRecord) : Option ℚ := a.executionResult.bind resultDuration

/-- The result of an attempt is a checkpoint. -/
def isCheckpoint (a : AttemptRecord) (result : WorkloadExecutionResult) : Bool :=
  result.wasCheckpointed || (a.checkpointHash.bind nonEmpty).isSome

/-- How an attempt ended, how good its record is, and the errors of its status. -/
def rate (a : AttemptRecord) : OutcomeSemantics × DataQualityState × List String :=
  match a.status with
  | .lost => (.lost, .censored, flag a.executionResult.isSome "LOST_ATTEMPT_HAS_OBSERVED_RESULT")
  | .queued | .assigned | .running => (.incomplete, .censored, [])
  | .succeeded =>
    match a.executionResult with
    | none => (.incomplete, .censored, ["SUCCEEDED_ATTEMPT_MISSING_RESULT"])
    | some result =>
      if !result.success then
        (.incomplete, .censored, ["SUCCEEDED_ATTEMPT_HAS_FAILED_RESULT"])
      else if isCheckpoint a result then (.checkpointed, .censored, [])
      else (.success, .valid,
        flag ((attemptDuration a).all (· ≤ 0)) "SUCCESS_DURATION_NOT_POSITIVE")
  | .failed => (.failure, .valid,
      flag (a.executionResult.any (·.success)) "FAILED_ATTEMPT_HAS_SUCCESS_RESULT" ++
        flag (a.failureCategory.isNone && (a.failureReason.bind nonEmpty).isNone &&
          a.executionResult.isNone) "FAILURE_WITHOUT_EXPLICIT_EVIDENCE")

/-- The errors of an attempt. -/
def errorsOf (valid : ℚ → Bool) (duplicate : Bool) (a : TimedAttempt) (w : Option LedgerWorkload) :
    List String :=
  identityErrors duplicate a.record ++ workloadErrors valid w ++ timelineErrors valid a.times ++
    terminalErrors a ++ resultErrors a.record ++ (rate a.record).2.2

/-! ## The projection -/

/-- The resources that a workload asks for. -/
def requestedResources (spec : WorkloadSpec) : RequestedResources where
  cpuCores := spec.minCpuCores
  ramBytes := spec.minRamBytes
  requiresGpu := spec.requiresGpu
  vramBytes := spec.minVramBytes
  gpuVendor := spec.requiredGpuVendor
  gpuModel := spec.requiredGpuModel

/-- The policy fields of a workload. -/
def policyContext (spec : WorkloadSpec) : PolicyContext where
  priority := spec.priority
  deadlineAtUtc := spec.deadlineAtUtc
  affinityGroupId := spec.affinityGroupId
  affinityMode := spec.affinityMode
  affinityHard := spec.affinityHard

/-- The placement of an attempt, with the explanation of the candidate that was selected. -/
def placementContext (d : PlacementDecision) : PlacementContext where
  decisionTimestampUtc := d.decisionTimestampUtc
  selectedWorkerId := d.selectedWorkerId
  placementScore := d.placementScore
  scoreBreakdown := d.scoreBreakdown
  m7RankingAdjustments := d.m7RankingAdjustments
  selectedCandidateExplanation := (d.candidateExplanations.find? fun c =>
    c.get? "worker_id" = some (.str d.selectedWorkerId)).getD ∅
  localityDetails := d.localityDetails
  deadlineDetails := d.deadlineDetails

/-- The observation of an attempt. -/
def observe (valid : ℚ → Bool) (duplicate : Bool) (a : TimedAttempt) (w : Option LedgerWorkload) :
    HistoricalObservation where
  observationId := nonEmpty a.record.attemptId
  dataQuality := if errorsOf valid duplicate a w = [] then (rate a.record).2.1 else .invalid
  validationErrors := sortOn id (errorsOf valid duplicate a w).dedup
  observedAtUtc := timestampOrNone valid a.times.finishedAt <|>
    timestampOrNone valid (some a.times.queuedAt)
  workloadId := nonEmpty a.record.workloadId
  attemptId := nonEmpty a.record.attemptId
  attemptNumber := if 0 < a.record.attemptNumber then some a.record.attemptNumber else none
  taskType := w.map (·.spec.taskType)
  workerId := a.record.workerId
  requestedResources := w.map (requestedResources ·.spec)
  submittedAtUtc := timestampOrNone valid (w.map (·.submittedAt))
  queuedAtUtc := timestampOrNone valid (some a.times.queuedAt)
  assignedAtUtc := timestampOrNone valid a.times.assignedAt
  startedAtUtc := timestampOrNone valid a.times.startedAt
  finishedAtUtc := timestampOrNone valid a.times.finishedAt
  durationSeconds := attemptDuration a.record
  outcome := (rate a.record).1
  failureCategory := a.record.failureCategory <|>
    a.record.executionResult.bind (·.failureCategory)
  failureReason := a.record.failureReason.bind nonEmpty <|>
    a.record.executionResult.bind (·.errorMessage)
  retryCount := a.record.attemptNumber - 1
  wasCheckpointed := (rate a.record).1 = .checkpointed
  policyContext := w.map (policyContext ·.spec)
  placementContext := a.record.placementDecision.map placementContext

/-- The workloads by their identifiers. -/
def workloadById (workloads : List LedgerWorkload) : Dict String LedgerWorkload :=
  Dict.ofList (workloads.map fun w => (w.spec.workloadId, w))

/-- The key by which attempts are projected: queued first, invalid readings before all others. -/
def queueKey (valid : ℚ → Bool) (a : TimedAttempt) : WithBot ℚ ×ₗ String :=
  toLex (if valid a.times.queuedAt then ↑a.times.queuedAt else ⊥, a.record.attemptId)

/-- The observations of the attempts. -/
def project (workloads : List LedgerWorkload) (attempts : List TimedAttempt) (now : ℚ) :
    List HistoricalObservation :=
  let valid := validTimestamp now
  let byId := workloadById workloads
  (sortOn (queueKey valid) attempts).map fun a =>
    observe valid (1 < attempts.countP (·.record.attemptId = a.record.attemptId)) a
      (byId.get? a.record.workloadId)

/-! ## Observations and the clock -/

variable {valid valid' : ℚ → Bool} {duplicate : Bool} {a : TimedAttempt}
  {w : Option LedgerWorkload} {now : ℚ}

theorem timestampOrNone_congr {value : Option ℚ} (h : ∀ r ∈ value, valid r = valid' r) :
    timestampOrNone valid value = timestampOrNone valid' value := by
  cases value with
  | none => rfl
  | some r =>
    simp only [timestampOrNone, Option.filter_some]
    rw [h r rfl]

theorem timelineErrors_congr {t : AttemptTimes} (h : ∀ r ∈ t.readings, valid r = valid' r) :
    timelineErrors valid t = timelineErrors valid' t := by
  have hq : valid t.queuedAt = valid' t.queuedAt := h _ List.mem_cons_self
  have hstep : ∀ acc, ∀ e ∈ [("ASSIGNED", t.assignedAt), ("STARTED", t.startedAt),
      ("FINISHED", t.finishedAt)], timelineStep valid acc e = timelineStep valid' acc e := by
    intro acc e he
    have hmem : ∀ r ∈ e.2, r ∈ t.readings := by
      intro r hr
      simp only [List.mem_cons, List.not_mem_nil, or_false] at he
      simp only [AttemptTimes.readings, List.mem_cons, List.mem_append, Option.mem_toList]
      rcases he with rfl | rfl | rfl
      · exact .inr (.inl (.inl hr))
      · exact .inr (.inl (.inr hr))
      · exact .inr (.inr hr)
    unfold timelineStep
    cases hv : e.2 with
    | none => rfl
    | some value => simp only [h value (hmem value hv)]
  unfold timelineErrors
  rw [List.foldl_ext _ _ _ hstep, hq]
  simp only [Option.filter_some, hq]

theorem workloadErrors_congr (h : ∀ r ∈ w, valid r.submittedAt = valid' r.submittedAt) :
    workloadErrors valid w = workloadErrors valid' w := by
  cases w with
  | none => rfl
  | some r =>
    unfold workloadErrors
    simp only [h r rfl]

/-- **An observation depends on the clock through its own readings only.** -/
theorem observe_congr (ha : ∀ r ∈ a.times.readings, valid r = valid' r)
    (hw : ∀ r ∈ w, valid r.submittedAt = valid' r.submittedAt) :
    observe valid duplicate a w = observe valid' duplicate a w := by
  have herrors : errorsOf valid duplicate a w = errorsOf valid' duplicate a w := by
    unfold errorsOf
    rw [workloadErrors_congr hw, timelineErrors_congr ha]
  have hread : ∀ value : Option ℚ, (∀ r ∈ value, r ∈ a.times.readings) →
      timestampOrNone valid value = timestampOrNone valid' value :=
    fun value h => timestampOrNone_congr fun r hr => ha r (h r hr)
  have hsubmitted : timestampOrNone valid (w.map (·.submittedAt)) =
      timestampOrNone valid' (w.map (·.submittedAt)) := by
    refine timestampOrNone_congr fun r hr => ?_
    obtain ⟨x, hx, rfl⟩ := Option.map_eq_some_iff.1 hr
    exact hw x hx
  unfold observe
  rw [herrors, hsubmitted, hread a.times.finishedAt (by simp +contextual [AttemptTimes.readings]),
    hread (some a.times.queuedAt) (by simp [AttemptTimes.readings]),
    hread a.times.assignedAt (by simp +contextual [AttemptTimes.readings]),
    hread a.times.startedAt (by simp +contextual [AttemptTimes.readings])]

/-- The readings that are not later than now need to be positive only. -/
theorem validTimestamp_of_le {value : ℚ} (h : value ≤ now) :
    validTimestamp now value = decide (0 < value) := by
  simp [validTimestamp, h]

theorem observe_some_congr {r r' : LedgerWorkload} {inputs : Finset String}
    (hspec : r'.spec = { r.spec with inputAssetHashes := inputs })
    (hsubmitted : r'.submittedAt = r.submittedAt) :
    observe valid duplicate a (some r') = observe valid duplicate a (some r) := by
  simp only [observe, errorsOf, workloadErrors, Option.map_some, hspec, hsubmitted]
  rfl

/-! ## The projection as a list -/

variable {attempts : List TimedAttempt} {workloads : List LedgerWorkload}

/-- Attempts with different identifiers are not flagged. -/
theorem duplicate_eq_false (h : (attempts.map (·.record.attemptId)).Nodup) (id : String) :
    decide (1 < attempts.countP (·.record.attemptId = id)) = false := by
  have hle := List.nodup_iff_count_le_one.1 h id
  rw [List.count_eq_countP, List.countP_map] at hle
  refine decide_eq_false (not_lt.2 (le_trans (List.countP_mono_left fun a _ ha => ?_) hle))
  simpa using ha

/-- **The projection of attempts with different identifiers.** -/
theorem perm_project (h : (attempts.map (·.record.attemptId)).Nodup) :
    (project workloads attempts now).Perm
      (attempts.map fun a => observe (validTimestamp now) false a
      ((workloadById workloads).get? a.record.workloadId)) := by
  unfold project
  simp only [duplicate_eq_false h]
  exact (perm_sortOn _ attempts).map _

end Aidars.M12
