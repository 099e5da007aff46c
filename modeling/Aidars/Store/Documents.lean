import Aidars.Attempt.Basic
import Aidars.Models.Redaction
import Aidars.Models.Specification
import Mathlib.Algebra.GroupWithZero.Nat

/-!
# Stored documents

The JSON documents in which the state store keeps specifications, results, placement decisions and
execution groups. Reading a document checks what constructing the value checks, so a value that was
changed after its construction may fail to come back. `validate` are these checks, and the
`reload` equations say what comes back of each document.
-/

namespace Aidars

/-! ## Values of enumerations -/

/-- The stored value of a failure category. -/
def FailureCategory.value : FailureCategory → String
  | workerUnavailable => "worker_unavailable"
  | temporaryCasFailure => "temporary_cas_failure"
  | resourceExhaustion => "resource_exhaustion"
  | executionTimeout => "execution_timeout"
  | assetTransferFailure => "asset_transfer_failure"
  | assetStagingFailure => "asset_staging_failure"
  | invalidInput => "invalid_input"
  | invalidDependency => "invalid_dependency"
  | missingExecutable => "missing_executable"
  | invalidWorkload => "invalid_workload"
  | applicationError => "application_error"
  | authorizationFailure => "authorization_failure"
  | malformedRequest => "malformed_request"
  | artifactVerificationFailure => "artifact_verification_failure"
  | executionFailure => "execution_failure"

/-- The stored value of a workload state. -/
def WorkloadState.value : WorkloadState → String
  | submitted => "submitted"
  | validating => "validating"
  | placing => "placing"
  | placed => "placed"
  | syncingAssets => "syncing_assets"
  | ready => "ready"
  | executing => "executing"
  | migrating => "migrating"
  | ingesting => "ingesting"
  | completed => "completed"
  | failed => "failed"
  | timeout => "timeout"
  | unschedulable => "unschedulable"
  | cancellationRequested => "cancellation_requested"
  | cancelled => "cancelled"

/-- The stored value of an attempt status. -/
def AttemptStatus.value : AttemptStatus → String
  | queued => "queued"
  | assigned => "assigned"
  | running => "running"
  | succeeded => "succeeded"
  | failed => "failed"
  | lost => "lost"

/-- The stored value of a group state. -/
def GroupState.value : GroupState → String
  | assigned => "assigned"
  | running => "running"
  | completed => "completed"
  | failed => "failed"
  | lost => "lost"

namespace Codec

def failureCategory : Codec FailureCategory :=
  enum [.workerUnavailable, .temporaryCasFailure, .resourceExhaustion, .executionTimeout,
    .assetTransferFailure, .assetStagingFailure, .invalidInput, .invalidDependency,
    .missingExecutable, .invalidWorkload, .applicationError, .authorizationFailure,
    .malformedRequest, .artifactVerificationFailure, .executionFailure] FailureCategory.value

def affinityMode : Codec AffinityMode :=
  enum [.none, .sameWorker, .differentWorker, .sameTag, .differentTag] AffinityMode.value

def workloadState : Codec WorkloadState :=
  enum [.submitted, .validating, .placing, .placed, .syncingAssets, .ready, .executing, .migrating,
    .ingesting, .completed, .failed, .timeout, .unschedulable, .cancellationRequested, .cancelled]
    WorkloadState.value

def attemptStatus : Codec AttemptStatus :=
  enum [.queued, .assigned, .running, .succeeded, .failed, .lost] AttemptStatus.value

def groupState : Codec GroupState :=
  enum [.assigned, .running, .completed, .failed, .lost] GroupState.value

@[simp] theorem failureCategory_reload (c : FailureCategory) :
    failureCategory.reload c = some c := by
  cases c <;> decide +kernel

@[simp] theorem affinityMode_reload (m : AffinityMode) : affinityMode.reload m = some m := by
  cases m <;> decide +kernel

@[simp] theorem workloadState_reload (st : WorkloadState) : workloadState.reload st = some st := by
  cases st <;> decide +kernel

@[simp] theorem attemptStatus_reload (st : AttemptStatus) : attemptStatus.reload st = some st := by
  cases st <;> decide +kernel

@[simp] theorem groupState_reload (st : GroupState) : groupState.reload st = some st := by
  cases st <;> decide +kernel

@[simp] theorem option_failureCategory_reload (c : Option FailureCategory) :
    failureCategory.option.reload c = some c := by
  cases c with
  | none => rfl
  | some c =>
    rw [option_reload_some (by rintro ⟨⟩), failureCategory_reload, Option.map_some]

end Codec

/-! ## Results -/

namespace WorkloadExecutionResult

/-- The bounds of a result: no phase has a negative duration. -/
def inBounds (r : WorkloadExecutionResult) : Bool :=
  [r.stagingDurationSeconds, r.outputIngestionDurationSeconds, r.verificationDurationSeconds,
    r.transferDurationSeconds].all (PyFloat.le 0)

/-- All durations are finite. -/
def isFinite (r : WorkloadExecutionResult) : Bool :=
  [r.executionDurationSeconds, r.stagingDurationSeconds, r.outputIngestionDurationSeconds,
    r.verificationDurationSeconds, r.transferDurationSeconds].all (·.isFinite)

end WorkloadExecutionResult

namespace Codec

def workloadExecutionResult : Codec WorkloadExecutionResult where
  encode r := .obj [
    ("workload_id", str.encode r.workloadId),
    ("worker_id", str.encode r.workerId),
    ("success", bool.encode r.success),
    ("output_asset_hashes", set.encode r.outputAssetHashes),
    ("output_asset_sizes", int.dict.encode r.outputAssetSizes),
    ("execution_duration_seconds", float.encode r.executionDurationSeconds),
    ("error_message", str.option.encode r.errorMessage),
    ("stdout_snippet", str.option.encode r.stdoutSnippet),
    ("stderr_snippet", str.option.encode r.stderrSnippet),
    ("was_checkpointed", bool.encode r.wasCheckpointed),
    ("checkpoint_hash", str.option.encode r.checkpointHash),
    ("failure_category", failureCategory.option.encode r.failureCategory),
    ("checkpoint_runtime_type", str.option.encode r.checkpointRuntimeType),
    ("checkpoint_format_version", int.option.encode r.checkpointFormatVersion),
    ("staging_duration_seconds", float.encode r.stagingDurationSeconds),
    ("output_ingestion_duration_seconds", float.encode r.outputIngestionDurationSeconds),
    ("verification_duration_seconds", float.encode r.verificationDurationSeconds),
    ("transfer_duration_seconds", float.encode r.transferDurationSeconds)]
  decode j := Option.filter WorkloadExecutionResult.inBounds do
    return {
      workloadId := ← str.field j "workload_id"
      workerId := ← str.field j "worker_id"
      success := ← bool.field j "success"
      outputAssetHashes := ← set.field j "output_asset_hashes"
      outputAssetSizes := ← int.dict.field j "output_asset_sizes"
      executionDurationSeconds := ← float.field j "execution_duration_seconds"
      errorMessage := ← str.option.field j "error_message"
      stdoutSnippet := ← str.option.field j "stdout_snippet"
      stderrSnippet := ← str.option.field j "stderr_snippet"
      wasCheckpointed := ← bool.field j "was_checkpointed"
      checkpointHash := ← str.option.field j "checkpoint_hash"
      failureCategory := ← failureCategory.option.field j "failure_category"
      checkpointRuntimeType := ← str.option.field j "checkpoint_runtime_type"
      checkpointFormatVersion := ← int.option.field j "checkpoint_format_version"
      stagingDurationSeconds := ← float.field j "staging_duration_seconds"
      outputIngestionDurationSeconds := ← float.field j "output_ingestion_duration_seconds"
      verificationDurationSeconds := ← float.field j "verification_duration_seconds"
      transferDurationSeconds := ← float.field j "transfer_duration_seconds" }

/-- A result comes back when its durations are finite and within their bounds. -/
theorem workloadExecutionResult_reload (r : WorkloadExecutionResult) :
    workloadExecutionResult.reload r = if r.isFinite && r.inBounds then some r else none := by
  unfold reload workloadExecutionResult
  simp only [field_cons, String.reduceEq, if_true, if_false, decode_encode, str_reload, bool_reload,
    set_reload, dict_int_reload, option_str_reload, option_failureCategory_reload,
    option_int_reload, float_reload, Option.bind_eq_bind, Option.bind_some, Option.pure_def,
    ite_some_bind]
  simp only [WorkloadExecutionResult.isFinite, List.all_cons, List.all_nil, Bool.and_true]
  split_ifs <;> simp_all [Option.filter]

theorem workloadExecutionResult_settles : workloadExecutionResult.Settles := by
  refine .of_stable fun r r' h => ?_
  rw [workloadExecutionResult_reload] at h
  split_ifs at h
  exact (Option.some.inj h).symm

end Codec

/-! ## Placement decisions and execution groups -/

/-- What constructing a group checks: its size, distinct members, unavailable workers among them,
and one decision for each. -/
def ExecutionGroup.isValid (g : ExecutionGroup) : Bool :=
  2 ≤ g.requiredWorkerCount && g.requiredWorkerCount ≤ 64 &&
    g.workerIds.length = g.requiredWorkerCount && g.workerIds.Nodup &&
    g.unavailableWorkerIds.toList.all (g.workerIds.contains ·) &&
    (g.placementDecisions = [] || g.placementDecisions.map (·.selectedWorkerId) = g.workerIds)

namespace PlacementDecision

/-- All numbers of a decision are finite, those of its free-form details included. -/
def isFinite (d : PlacementDecision) : Bool :=
  d.placementScore.isFinite && d.decisionTimestampUtc.isFinite &&
    d.scoreBreakdown.values.all (·.isFinite) && d.m7RankingAdjustments.values.all (·.isFinite) &&
    d.candidateExplanations.all (fun e => Json.isFiniteEntries e.entries) &&
    Json.isFiniteEntries d.localityDetails.entries && Json.isFiniteEntries d.deadlineDetails.entries

end PlacementDecision

namespace Codec

theorem dict_float_stable_iff {d : Dict String PyFloat} :
    float.dict.Stable d ↔ d.values.all (·.isFinite) = true := by
  rw [dict_stable_iff, List.all_eq_true]
  refine forall₂_congr fun x _ => ?_
  rw [Stable, float_reload]
  split_ifs with h <;> simp [h]

theorem encodeAnyEntries_eq_map (l : List (String × Json)) :
    Json.encodeAnyEntries l = l.map fun e => (e.1, e.2.encodeAny) := by
  induction l with
  | nil => rfl
  | cons e l ih => rw [List.map_cons, ← ih, Json.encodeAnyEntries]

theorem mapValues_encodeAny_eq_iff {d : Dict String Json} :
    (d.mapValues fun _ => Json.encodeAny) = d ↔ Json.isFiniteEntries d.entries = true := by
  rw [← Json.encodeAnyEntries_eq_iff, encodeAnyEntries_eq_map]
  constructor
  · exact congrArg Dict.entries
  · exact fun h => Dict.ext_entries (d := d.mapValues fun _ => Json.encodeAny) h

def placementDecision : Codec PlacementDecision where
  encode d := .obj [
    ("workload_id", str.encode d.workloadId),
    ("selected_worker_id", str.encode d.selectedWorkerId),
    ("placement_score", float.encode d.placementScore),
    ("score_breakdown", float.dict.encode d.scoreBreakdown),
    ("missing_assets_on_worker", set.encode d.missingAssetsOnWorker),
    ("execution_tier", str.encode d.executionTier),
    ("decision_timestamp_utc", float.encode d.decisionTimestampUtc),
    ("candidate_explanations", any.dict.list.encode d.candidateExplanations),
    ("m7_ranking_adjustments", float.dict.encode d.m7RankingAdjustments),
    ("locality_details", any.dict.encode d.localityDetails),
    ("deadline_details", any.dict.encode d.deadlineDetails)]
  decode j := do
    return {
      workloadId := ← str.field j "workload_id"
      selectedWorkerId := ← str.field j "selected_worker_id"
      placementScore := ← float.field j "placement_score"
      scoreBreakdown := ← float.dict.field j "score_breakdown"
      missingAssetsOnWorker := ← set.field j "missing_assets_on_worker"
      executionTier := ← str.field j "execution_tier"
      decisionTimestampUtc := ← float.field j "decision_timestamp_utc"
      candidateExplanations := ← any.dict.list.field j "candidate_explanations"
      m7RankingAdjustments := ← float.dict.field j "m7_ranking_adjustments"
      localityDetails := ← any.dict.field j "locality_details"
      deadlineDetails := ← any.dict.field j "deadline_details" }

theorem list_dict_any_reload (l : List (Dict String Json)) :
    any.dict.list.reload l = some (l.map fun d => d.mapValues fun _ => Json.encodeAny) := by
  rw [list_reload, mapM_eq_some_map fun d _ => dict_any_reload d]

/-- What comes back of a decision. -/
theorem placementDecision_reload (d : PlacementDecision) :
    placementDecision.reload d =
      if d.placementScore.isFinite then (float.dict.reload d.scoreBreakdown).bind fun breakdown =>
        if d.decisionTimestampUtc.isFinite then
          (float.dict.reload d.m7RankingAdjustments).bind fun adjustments => some { d with
            scoreBreakdown := breakdown
            candidateExplanations :=
              d.candidateExplanations.map fun e => e.mapValues fun _ => Json.encodeAny
            m7RankingAdjustments := adjustments
            localityDetails := d.localityDetails.mapValues fun _ => Json.encodeAny
            deadlineDetails := d.deadlineDetails.mapValues fun _ => Json.encodeAny }
        else none
      else none := by
  unfold reload placementDecision
  simp only [field_cons, String.reduceEq, if_true, if_false, decode_encode, str_reload, set_reload,
    float_reload, dict_any_reload, list_dict_any_reload, Option.bind_eq_bind, Option.bind_some,
    Option.pure_def, ite_some_bind]

/-- A decision that came back once comes back again. -/
theorem placementDecision_settles : placementDecision.Settles := by
  intro d d' h
  rw [placementDecision_reload] at h
  split_ifs at h with hscore htime
  · obtain ⟨breakdown, hb, h⟩ := Option.bind_eq_some_iff.1 h
    obtain ⟨adjustments, ha, h⟩ := Option.bind_eq_some_iff.1 h
    obtain rfl := Option.some.inj h
    have hb' : float.dict.reload breakdown = some breakdown := float_settles.dict _ _ hb
    have ha' : float.dict.reload adjustments = some adjustments := float_settles.dict _ _ ha
    have hany : ∀ e : Dict String Json, ((e.mapValues fun _ => Json.encodeAny).mapValues
        fun _ => Json.encodeAny) = e.mapValues fun _ => Json.encodeAny := by
      intro e
      have hstable := any_settles.dict _ _ (dict_any_reload e)
      rw [Stable, dict_any_reload] at hstable
      exact Option.some.inj hstable
    rw [Stable, placementDecision_reload]
    dsimp only
    rw [if_pos hscore, hb', Option.bind_some, if_pos htime, ha', Option.bind_some, List.map_map,
      hany, hany]
    have hfun : (fun e : Dict String Json => e.mapValues fun _ => Json.encodeAny) ∘
        (fun e : Dict String Json => e.mapValues fun _ => Json.encodeAny) =
          fun e : Dict String Json => e.mapValues fun _ => Json.encodeAny := funext hany
    rw [hfun]
  · obtain ⟨breakdown, -, h⟩ := Option.bind_eq_some_iff.1 h
    cases h

/-- **A decision comes back when all its numbers are finite.** -/
theorem placementDecision_stable_iff {d : PlacementDecision} :
    placementDecision.Stable d ↔ d.isFinite = true := by
  have hlist : (d.candidateExplanations.map fun e => e.mapValues fun _ => Json.encodeAny) =
      d.candidateExplanations ↔
        (d.candidateExplanations.all fun e => Json.isFiniteEntries e.entries) = true := by
    have := List.map_inj_left (l := d.candidateExplanations)
      (f := fun e => e.mapValues fun _ => Json.encodeAny) (g := id)
    rw [List.map_id] at this
    rw [this, List.all_eq_true]
    exact forall₂_congr fun e _ => mapValues_encodeAny_eq_iff
  unfold Stable
  rw [placementDecision_reload]
  simp only [PlacementDecision.isFinite, Bool.and_eq_true, ← dict_float_stable_iff, ← hlist,
    ← mapValues_encodeAny_eq_iff]
  constructor
  · intro h
    split_ifs at h with hscore htime
    · obtain ⟨breakdown, hb, h⟩ := Option.bind_eq_some_iff.1 h
      obtain ⟨adjustments, ha, h⟩ := Option.bind_eq_some_iff.1 h
      have h := Option.some.inj h
      have h₁ : breakdown = d.scoreBreakdown := congrArg PlacementDecision.scoreBreakdown h
      have h₂ : adjustments = d.m7RankingAdjustments :=
        congrArg PlacementDecision.m7RankingAdjustments h
      rw [h₁] at hb
      rw [h₂] at ha
      exact ⟨⟨⟨⟨⟨⟨hscore, htime⟩, hb⟩, ha⟩, congrArg PlacementDecision.candidateExplanations h⟩,
        congrArg PlacementDecision.localityDetails h⟩, congrArg PlacementDecision.deadlineDetails h⟩
    · obtain ⟨breakdown, -, h⟩ := Option.bind_eq_some_iff.1 h
      cases h
  · rintro ⟨⟨⟨⟨⟨⟨hscore, htime⟩, hb⟩, ha⟩, hc⟩, hl⟩, hd⟩
    rw [if_pos hscore, hb, Option.bind_some, if_pos htime, ha, Option.bind_some, hc, hl, hd]

def executionGroup : Codec ExecutionGroup where
  encode g := .obj [
    ("execution_id", str.encode g.executionId),
    ("worker_ids", str.list.encode g.workerIds),
    ("required_worker_count", nat.encode g.requiredWorkerCount),
    ("state", groupState.encode g.state),
    ("unavailable_worker_ids", str.list.encode g.unavailableWorkerIds.toList),
    ("placement_decisions", placementDecision.list.encode g.placementDecisions)]
  decode j := Option.filter ExecutionGroup.isValid do
    return {
      executionId := ← str.field j "execution_id"
      workerIds := ← str.list.field j "worker_ids"
      requiredWorkerCount := ← nat.field j "required_worker_count"
      state := ← groupState.field j "state"
      unavailableWorkerIds := PySet.ofList (← str.list.field j "unavailable_worker_ids")
      placementDecisions := ← placementDecision.list.field j "placement_decisions" }

theorem executionGroup_reload (g : ExecutionGroup) : executionGroup.reload g =
    ((placementDecision.list.reload g.placementDecisions).map fun decisions =>
      { g with placementDecisions := decisions }).filter ExecutionGroup.isValid := by
  have hset : PySet.ofList g.unavailableWorkerIds.toList = g.unavailableWorkerIds := by
    obtain ⟨l, hl⟩ := g.unavailableWorkerIds
    simp only [PySet.ofList, hl.dedup]
  unfold reload executionGroup
  simp only [field_cons, String.reduceEq, if_true, if_false, decode_encode, str_reload,
    list_str_reload, nat_reload, groupState_reload, Option.bind_eq_bind, Option.bind_some,
    Option.pure_def, hset]
  cases placementDecision.list.reload g.placementDecisions <;> rfl

/-- A group that came back once comes back again. -/
theorem executionGroup_settles : executionGroup.Settles := by
  intro g g' h
  rw [executionGroup_reload, Option.filter_eq_some_iff] at h
  obtain ⟨h, hvalid⟩ := h
  obtain ⟨decisions, hd, rfl⟩ := Option.map_eq_some_iff.1 h
  have hd' : placementDecision.list.reload decisions = some decisions :=
    placementDecision_settles.list _ _ hd
  rw [Stable, executionGroup_reload, hd', Option.map_some, Option.filter_eq_some_iff]
  exact ⟨rfl, hvalid⟩

end Codec

namespace Codec

/-- An execution specification as it is written; reading it back constructs it again. -/
def executionSpec : Codec ExecutionSpec where
  encode e := .obj [
    ("executable", str.encode e.executable),
    ("args", str.list.encode e.args),
    ("env", str.dict.encode e.env),
    ("cwd", str.option.encode e.cwd),
    ("timeout_seconds", float.option.encode e.timeoutSeconds),
    ("command", str.option.encode e.command)]
  decode j := do
    return {
      executable := ← str.field j "executable"
      args := ← str.list.field j "args"
      env := ← str.dict.field j "env"
      cwd := ← str.option.field j "cwd"
      timeoutSeconds := ← float.option.field j "timeout_seconds"
      command := ← str.option.field j "command" }

/-- A specification as it is written. Reading gives the fields, which are then checked. -/
def workloadSpec : Codec WorkloadSpec where
  encode spec := .obj [
    ("workload_id", str.encode spec.workloadId),
    ("job_id", str.option.encode spec.jobId),
    ("task_type", str.encode spec.taskType),
    ("input_asset_hashes", set.encode spec.inputAssetHashes),
    ("min_cpu_cores", nat.encode spec.minCpuCores),
    ("min_ram_bytes", nat.encode spec.minRamBytes),
    ("requires_gpu", bool.encode spec.requiresGpu),
    ("min_vram_bytes", nat.encode spec.minVramBytes),
    ("estimated_duration_seconds", float.encode spec.estimatedDurationSeconds),
    ("priority", nat.encode spec.priority),
    ("deadline_at_utc", float.option.encode spec.deadlineAtUtc),
    ("required_gpu_vendor", str.option.encode spec.requiredGpuVendor),
    ("required_gpu_model", str.option.encode spec.requiredGpuModel),
    ("min_compute_capability", str.option.encode spec.minComputeCapability),
    ("required_driver_version", str.option.encode spec.requiredDriverVersion),
    ("required_runtime_compatibility", str.option.encode spec.requiredRuntimeCompatibility),
    ("required_worker_tags", str.dict.encode spec.requiredWorkerTags),
    ("preferred_worker_tags", str.dict.encode spec.preferredWorkerTags),
    ("affinity_group_id", str.option.encode spec.affinityGroupId),
    ("affinity_mode", affinityMode.encode spec.affinityMode),
    ("affinity_tag_key", str.option.encode spec.affinityTagKey),
    ("affinity_hard", bool.encode spec.affinityHard),
    ("max_cost_per_hour", float.option.encode spec.maxCostPerHour),
    ("depends_on", str.list.encode spec.dependsOn),
    ("parameters", any.dict.encode spec.parameters),
    ("execution_spec", executionSpec.option.encode spec.executionSpec)]
  decode j := do
    return {
      workloadId := ← str.field j "workload_id"
      jobId := ← str.option.field j "job_id"
      taskType := ← str.field j "task_type"
      inputAssetHashes := ← set.field j "input_asset_hashes"
      minCpuCores := ← nat.field j "min_cpu_cores"
      minRamBytes := ← nat.field j "min_ram_bytes"
      requiresGpu := ← bool.field j "requires_gpu"
      minVramBytes := ← nat.field j "min_vram_bytes"
      estimatedDurationSeconds := ← float.field j "estimated_duration_seconds"
      priority := ← nat.field j "priority"
      deadlineAtUtc := ← float.option.field j "deadline_at_utc"
      requiredGpuVendor := ← str.option.field j "required_gpu_vendor"
      requiredGpuModel := ← str.option.field j "required_gpu_model"
      minComputeCapability := ← str.option.field j "min_compute_capability"
      requiredDriverVersion := ← str.option.field j "required_driver_version"
      requiredRuntimeCompatibility := ← str.option.field j "required_runtime_compatibility"
      requiredWorkerTags := ← str.dict.field j "required_worker_tags"
      preferredWorkerTags := ← str.dict.field j "preferred_worker_tags"
      affinityGroupId := ← str.option.field j "affinity_group_id"
      affinityMode := ← affinityMode.field j "affinity_mode"
      affinityTagKey := ← str.option.field j "affinity_tag_key"
      affinityHard := ← bool.field j "affinity_hard"
      maxCostPerHour := ← float.option.field j "max_cost_per_hour"
      dependsOn := ← str.list.field j "depends_on"
      parameters := ← any.dict.field j "parameters"
      executionSpec := ← executionSpec.option.field j "execution_spec" }

theorem executionSpec_reload (e : ExecutionSpec) : executionSpec.reload e =
    some { e with timeoutSeconds := e.timeoutSeconds.filter (·.isFinite) } := by
  unfold reload executionSpec
  simp only [field_cons, String.reduceEq, if_true, if_false, decode_encode, str_reload,
    list_str_reload, dict_str_reload, option_str_reload, option_float_reload, Option.bind_eq_bind,
    Option.bind_some, Option.pure_def]

theorem option_executionSpec_reload (e : Option ExecutionSpec) :
    executionSpec.option.reload e =
      some (e.map fun e => { e with timeoutSeconds := e.timeoutSeconds.filter (·.isFinite) }) := by
  cases e with
  | none => rfl
  | some e =>
    rw [option_reload_some (by rintro ⟨⟩), executionSpec_reload]
    rfl

/-- What is read back of a specification, before its checks. -/
theorem workloadSpec_reload (spec : WorkloadSpec) : workloadSpec.reload spec =
    if spec.estimatedDurationSeconds.isFinite then some { spec with
      deadlineAtUtc := spec.deadlineAtUtc.filter (·.isFinite)
      maxCostPerHour := spec.maxCostPerHour.filter (·.isFinite)
      parameters := spec.parameters.mapValues fun _ => Json.encodeAny
      executionSpec := spec.executionSpec.map fun e =>
        { e with timeoutSeconds := e.timeoutSeconds.filter (·.isFinite) } }
    else none := by
  unfold reload workloadSpec
  simp only [field_cons, String.reduceEq, if_true, if_false, decode_encode, str_reload, nat_reload,
    bool_reload, set_reload, list_str_reload, dict_str_reload, option_str_reload,
    option_float_reload, affinityMode_reload, dict_any_reload, option_executionSpec_reload,
    float_reload, Option.bind_eq_bind, Option.bind_some, Option.pure_def, ite_some_bind]

end Codec

end Aidars
