import Aidars.Store.Documents

/-!
# Rows of the state store

`saveWorkload` and `saveAttempt` write a record as a row, with its documents as columns of their
own and the parameters of a specification redacted. `rowToWorkloadRecord` and `rowToAttempt`
construct a record from a row and fail on a malformed one, which loading skips. Columns with
timestamps and placement explanations are left out.

`reloadWorkload_eq_self_iff` says which workload records come back as they were: the `Durable` ones.
An attempt comes back with its identity, status and result or not at all (`reloadAttempt_some`).
-/

namespace Aidars

/-! ## Workloads -/

/-- The row of a workload. -/
structure WorkloadRow where
  workloadId : String
  specJson : Json
  state : String
  placementJson : Option Json
  executionResultJson : Option Json
  errorMessage : Option String
  deriving DecidableEq

namespace StateStore

/-- The text of a specification for storage, with redacted parameters. -/
def redactedMetadataJson (spec : WorkloadSpec) : Json :=
  Codec.workloadSpec.encode { spec with parameters := redactWorkloadParameters spec.parameters }

/-- The row that is written for a workload. -/
def saveWorkload (record : WorkloadRecord) : WorkloadRow where
  workloadId := record.spec.workloadId
  specJson := redactedMetadataJson record.spec
  state := record.state.value
  placementJson := record.placementDecision.map Codec.placementDecision.encode
  executionResultJson := record.executionResult.map Codec.workloadExecutionResult.encode
  errorMessage := record.errorMessage

/-- Read an optional document: a column without a value gives none. -/
def readColumn {α : Type} (c : Codec α) : Option Json → Option (Option α)
  | none => some none
  | some j => (c.decode j).map some

variable (floatRepr : PyFloat → String)

/-- Construct the record of a workload from its row. -/
def rowToWorkloadRecord (row : WorkloadRow) : Option WorkloadRecord := do
  let spec ← (← Codec.workloadSpec.decode row.specJson).validate floatRepr
  let state ← Codec.workloadState.decode (.str row.state)
  let placementDecision ← readColumn Codec.placementDecision row.placementJson
  let executionResult ← readColumn Codec.workloadExecutionResult row.executionResultJson
  return { spec, state, placementDecision, executionResult, errorMessage := row.errorMessage }

/-- What is read back of a workload record. -/
def reloadWorkload (record : WorkloadRecord) : Option WorkloadRecord :=
  rowToWorkloadRecord floatRepr (saveWorkload record)

/-! ## Attempts -/

end StateStore

/-- The row of an attempt. -/
structure AttemptRow where
  attemptId : String
  workloadId : String
  attemptNumber : ℕ
  status : String
  workerId : Option String
  failureCategory : Option String
  failureReason : Option String
  executionResultJson : Option Json
  checkpointHash : Option String
  checkpointRuntimeType : Option String
  checkpointFormatVersion : Option ℤ
  placementDecisionJson : Option Json
  executionGroupJson : Option Json
  deriving DecidableEq

namespace StateStore

/-- An integer that a column can hold. -/
def fitsInt64 (n : ℤ) : Bool := -2 ^ 63 ≤ n ∧ n < 2 ^ 63

/-- The values that are bound when an attempt is saved. -/
def attemptRow (attempt : AttemptRecord) : AttemptRow where
  attemptId := attempt.attemptId
  workloadId := attempt.workloadId
  attemptNumber := attempt.attemptNumber
  status := attempt.status.value
  workerId := attempt.workerId
  failureCategory := attempt.failureCategory.map FailureCategory.value
  failureReason := attempt.failureReason
  executionResultJson := attempt.executionResult.map Codec.workloadExecutionResult.encode
  checkpointHash := attempt.checkpointHash
  checkpointRuntimeType := attempt.checkpointRuntimeType
  checkpointFormatVersion := attempt.checkpointFormatVersion
  placementDecisionJson := attempt.placementDecision.map Codec.placementDecision.encode
  executionGroupJson := attempt.executionGroup.map Codec.executionGroup.encode

/-- The row that is written for an attempt. A format version that the column cannot hold raises. -/
def saveAttempt (attempt : AttemptRecord) : Option AttemptRow :=
  if attempt.checkpointFormatVersion.all fitsInt64 then some (attemptRow attempt) else none

/-- Construct an attempt from its row. -/
def rowToAttempt (row : AttemptRow) : Option AttemptRecord := do
  let status ← Codec.attemptStatus.decode (.str row.status)
  let failureCategory ←
    readColumn Codec.failureCategory (row.failureCategory.map Json.str)
  let executionResult ← readColumn Codec.workloadExecutionResult row.executionResultJson
  let placementDecision ← readColumn Codec.placementDecision row.placementDecisionJson
  let executionGroup ← readColumn Codec.executionGroup row.executionGroupJson
  return {
    attemptId := row.attemptId
    workloadId := row.workloadId
    attemptNumber := row.attemptNumber
    status
    workerId := row.workerId
    failureCategory
    failureReason := row.failureReason
    executionResult
    placementDecision
    executionGroup
    checkpointHash := row.checkpointHash
    checkpointRuntimeType := row.checkpointRuntimeType
    checkpointFormatVersion := row.checkpointFormatVersion }

/-- What is read back of an attempt. -/
def reloadAttempt (attempt : AttemptRecord) : Option AttemptRecord :=
  (saveAttempt attempt).bind rowToAttempt

/-! ## Reading back -/

variable {α : Type}

theorem readColumn_map (c : Codec α) (x : Option α) :
    readColumn c (x.map c.encode) = match x with
      | none => some none
      | some a => (c.reload a).map some := by
  cases x <;> rfl

theorem readColumn_map_eq_some_iff {c : Codec α} {x y : Option α} :
    readColumn c (x.map c.encode) = some y ↔
      (x = none ∧ y = none) ∨ ∃ a b, x = some a ∧ y = some b ∧ c.reload a = some b := by
  cases x with
  | none => simp [readColumn, eq_comm]
  | some a =>
    rw [readColumn_map]
    simp [eq_comm, and_comm]

/-- An optional document comes back when it is stable. -/
theorem readColumn_map_eq_self_iff {c : Codec α} {x : Option α} :
    readColumn c (x.map c.encode) = some x ↔ ∀ a ∈ x, c.Stable a := by
  cases x with
  | none => simp [readColumn]
  | some a =>
    rw [readColumn_map]
    simp [Codec.Stable]

theorem readColumn_failureCategory (c : Option FailureCategory) :
    readColumn Codec.failureCategory ((c.map FailureCategory.value).map Json.str) = some c := by
  rw [Option.map_map]
  exact readColumn_map_eq_self_iff.2 fun a _ => Codec.failureCategory_reload a

theorem eq_of_readColumn_result {x y : Option WorkloadExecutionResult}
    (h : readColumn Codec.workloadExecutionResult
      (x.map Codec.workloadExecutionResult.encode) = some y) : y = x := by
  rcases readColumn_map_eq_some_iff.1 h with ⟨rfl, rfl⟩ | ⟨a, b, rfl, rfl, hab⟩
  · rfl
  · rw [Codec.workloadExecutionResult_reload] at hab
    split_ifs at hab
    exact hab.symm

theorem saveAttempt_eq_some_iff {r : AttemptRecord} {row : AttemptRow} :
    saveAttempt r = some row ↔
      r.checkpointFormatVersion.all fitsInt64 = true ∧ attemptRow r = row := by
  unfold saveAttempt
  split_ifs with h <;> simp [h]

theorem bind_saveAttempt {β : Type} {r : AttemptRecord} {f : AttemptRow → Option β} {b : β} :
    (saveAttempt r).bind f = some b ↔
      r.checkpointFormatVersion.all fitsInt64 = true ∧ f (attemptRow r) = some b := by
  unfold saveAttempt
  split_ifs with h <;> simp [h]

/-- What it takes for an attempt to come back, and what then comes back. -/
theorem reloadAttempt_eq_some {r r' : AttemptRecord} : reloadAttempt r = some r' ↔
    r.checkpointFormatVersion.all fitsInt64 = true ∧ ∃ result,
      readColumn Codec.workloadExecutionResult
        (r.executionResult.map Codec.workloadExecutionResult.encode) = some result ∧
      ∃ decision, readColumn Codec.placementDecision
          (r.placementDecision.map Codec.placementDecision.encode) = some decision ∧
        ∃ group, readColumn Codec.executionGroup
            (r.executionGroup.map Codec.executionGroup.encode) = some group ∧
          { r with
            executionResult := result
            placementDecision := decision
            executionGroup := group } = r' := by
  have hs : Codec.attemptStatus.decode (.str r.status.value) = some r.status :=
    Codec.attemptStatus_reload r.status
  rw [reloadAttempt, bind_saveAttempt]
  simp only [rowToAttempt, attemptRow, readColumn_failureCategory, hs,
    Option.bind_eq_bind, Option.bind_some, Option.pure_def, Option.bind_eq_some_iff,
    Option.some.injEq]

/-- **An attempt that comes back has its identity, status and result.** -/
theorem reloadAttempt_some {r r' : AttemptRecord} (h : reloadAttempt r = some r') :
    r'.attemptId = r.attemptId ∧ r'.workloadId = r.workloadId ∧
      r'.attemptNumber = r.attemptNumber ∧ r'.status = r.status ∧
      r'.executionResult = r.executionResult := by
  obtain ⟨-, result, hresult, decision, -, group, -, rfl⟩ := reloadAttempt_eq_some.1 h
  exact ⟨rfl, rfl, rfl, rfl, eq_of_readColumn_result hresult⟩

theorem reload_group {r r' : AttemptRecord} (h : reloadAttempt r = some r') :
    (r.executionGroup = none ∧ r'.executionGroup = none) ∨ ∃ g decisions,
      r.executionGroup = some g ∧
        r'.executionGroup = some { g with placementDecisions := decisions } ∧
        ({ g with placementDecisions := decisions } : ExecutionGroup).isValid = true := by
  obtain ⟨-, result, -, decision, -, group, hgroup, rfl⟩ := reloadAttempt_eq_some.1 h
  refine (readColumn_map_eq_some_iff.1 hgroup).imp_right ?_
  rintro ⟨g, g', hx, rfl, hg⟩
  rw [Codec.executionGroup_reload, Option.filter_eq_some_iff] at hg
  obtain ⟨hg, hvalid⟩ := hg
  obtain ⟨decisions, -, rfl⟩ := Option.map_eq_some_iff.1 hg
  exact ⟨g, decisions, hx, rfl, hvalid⟩

theorem reloadAttempt_workers {r r' : AttemptRecord} (h : reloadAttempt r = some r') :
    r'.workerId = r.workerId ∧ r'.checkpointHash = r.checkpointHash ∧
      r'.executionGroup.map (·.workerIds) = r.executionGroup.map (·.workerIds) ∧
      ∀ g ∈ r'.executionGroup, g.isValid = true := by
  have hgroup := reload_group h
  obtain ⟨-, result, -, decision, -, group, -, rfl⟩ := reloadAttempt_eq_some.1 h
  refine ⟨rfl, rfl, ?_⟩
  rcases hgroup with ⟨hx, hy⟩ | ⟨g, decisions, hx, hy, hvalid⟩
  · rw [hx, hy]
    exact ⟨rfl, nofun⟩
  · rw [hx, hy]
    refine ⟨rfl, fun g₁ hg₁ => ?_⟩
    obtain rfl := Option.some.inj hg₁
    exact hvalid

theorem reloadAttempt_failure {r r' : AttemptRecord} (h : reloadAttempt r = some r') :
    r'.failureCategory = r.failureCategory ∧
      r'.executionGroup.map (·.unavailableWorkerIds) =
        r.executionGroup.map (·.unavailableWorkerIds) := by
  have hgroup := reload_group h
  obtain ⟨-, result, -, decision, -, group, -, rfl⟩ := reloadAttempt_eq_some.1 h
  refine ⟨rfl, ?_⟩
  rcases hgroup with ⟨hx, hy⟩ | ⟨g, decisions, hx, hy, -⟩
  · rw [hx, hy]
  · rw [hx, hy]
    rfl

end StateStore

/-! ## Durable records -/

/-- All numbers of a specification outside its parameters are finite. -/
def WorkloadSpec.isFinite (spec : WorkloadSpec) : Bool :=
  spec.estimatedDurationSeconds.isFinite && spec.deadlineAtUtc.all (·.isFinite) &&
    spec.maxCostPerHour.all (·.isFinite) &&
    spec.executionSpec.all (fun e => e.timeoutSeconds.all (·.isFinite))

/-- A record that storage keeps: its parameters hold nothing that redaction rewrites, its
specification passes the checks of its own construction, and its numbers are finite. -/
structure WorkloadRecord.Durable (floatRepr : PyFloat → String) (r : WorkloadRecord) : Prop where
  parameters : StorableParameters r.spec.parameters
  wellFormed : r.spec.validate floatRepr = some r.spec
  numbers : r.spec.isFinite = true
  decision : ∀ d ∈ r.placementDecision, d.isFinite = true
  result : ∀ x ∈ r.executionResult, (x.isFinite && x.inBounds) = true

/-- An attempt that storage keeps: its format version fits the column, the durations of its result
are finite and not negative, and the numbers of its decisions are finite. -/
structure AttemptRecord.Durable (r : AttemptRecord) : Prop where
  version : r.checkpointFormatVersion.all StateStore.fitsInt64 = true
  result : ∀ x ∈ r.executionResult, (x.isFinite && x.inBounds) = true
  decision : ∀ d ∈ r.placementDecision, d.isFinite = true
  members : ∀ g ∈ r.executionGroup, ∀ d ∈ g.placementDecisions, d.isFinite = true

namespace StateStore

variable {floatRepr : PyFloat → String}

theorem entries_redactWorkloadParameters (p : Dict String Json) :
    (redactWorkloadParameters p).entries = redactEntries p.entries := by
  change p.entries.map _ = _
  induction p.entries with
  | nil => rfl
  | cons e l ih =>
    obtain ⟨k, j⟩ := e
    rw [List.map_cons, ih, redactEntries]

/-- Parameters come back when they are storable. -/
theorem stored_parameters_eq_iff {p : Dict String Json} :
    ((redactWorkloadParameters p).mapValues fun _ => Json.encodeAny) = p ↔
      StorableParameters p := by
  unfold StorableParameters
  rw [← encodeAny_redactEntries_eq_iff, ← entries_redactWorkloadParameters,
    Codec.encodeAnyEntries_eq_map]
  constructor
  · exact congrArg Dict.entries
  · intro h
    exact Dict.ext_entries
      (d := (redactWorkloadParameters p).mapValues fun _ => Json.encodeAny) h

theorem filter_eq_self_iff {α : Type} {p : α → Bool} {x : Option α} :
    x.filter p = x ↔ x.all p = true := by
  cases x with
  | none => simp
  | some a => cases h : p a <;> simp [h]

/-- What it takes to construct a specification. -/
theorem validate_eq_some {s t : WorkloadSpec} : s.validate floatRepr = some t ↔
    ∃ e, ExecutionSpec.validateOption s.executionSpec = some e ∧
      ∃ hashes, WorkloadSpec.validateHashes s.inputAssetHashes = some hashes ∧
        ((t.inBounds && t.parametersFit floatRepr && t.validateAffinity) = true ∧
          { s with executionSpec := e, inputAssetHashes := hashes } = t) := by
  simp only [WorkloadSpec.validate, Option.bind_eq_bind, Option.bind_eq_some_iff,
    Option.ite_none_right_eq_some, Option.some.injEq]
  refine exists_congr fun e => and_congr_right fun _ => exists_congr fun hashes =>
    and_congr_right fun _ => and_congr_left ?_
  rintro rfl
  rfl

/-- Construction leaves the numbers and the parameters of a specification alone. -/
theorem validate_some {s t : WorkloadSpec} (h : s.validate floatRepr = some t) :
    t.deadlineAtUtc = s.deadlineAtUtc ∧ t.maxCostPerHour = s.maxCostPerHour ∧
      t.parameters = s.parameters ∧
      t.executionSpec.map (·.timeoutSeconds) = s.executionSpec.map (·.timeoutSeconds) := by
  obtain ⟨e, he, hashes, -, -, rfl⟩ := validate_eq_some.1 h
  refine ⟨rfl, rfl, rfl, ?_⟩
  cases hs : s.executionSpec with
  | none =>
    rw [hs] at he
    obtain rfl := Option.some.inj he
    rfl
  | some e₀ =>
    rw [hs] at he
    obtain ⟨e₁, he₁, rfl⟩ := Option.map_eq_some_iff.1 he
    unfold ExecutionSpec.validate at he₁
    split_ifs at he₁
    obtain rfl := Option.some.inj he₁
    simp only [Option.map_some, ExecutionSpec.unifyCommandExecutable]
    split_ifs <;> rfl

/-- The specification as it is read, before its checks. -/
def storedSpec (spec : WorkloadSpec) : WorkloadSpec :=
  { spec with
    deadlineAtUtc := spec.deadlineAtUtc.filter (·.isFinite)
    maxCostPerHour := spec.maxCostPerHour.filter (·.isFinite)
    parameters := (redactWorkloadParameters spec.parameters).mapValues fun _ => Json.encodeAny
    executionSpec := spec.executionSpec.map fun e =>
      { e with timeoutSeconds := e.timeoutSeconds.filter (·.isFinite) } }

theorem decode_redactedMetadataJson (spec : WorkloadSpec) :
    Codec.workloadSpec.decode (redactedMetadataJson spec) =
      if spec.estimatedDurationSeconds.isFinite then some (storedSpec spec) else none :=
  Codec.workloadSpec_reload _

theorem storedSpec_eq_self {spec : WorkloadSpec} (hp : StorableParameters spec.parameters)
    (hf : spec.isFinite = true) : storedSpec spec = spec := by
  simp only [WorkloadSpec.isFinite, Bool.and_eq_true] at hf
  obtain ⟨⟨⟨-, hd⟩, hc⟩, he⟩ := hf
  have he' : (spec.executionSpec.map fun e =>
      { e with timeoutSeconds := e.timeoutSeconds.filter (·.isFinite) }) = spec.executionSpec := by
    cases hs : spec.executionSpec with
    | none => rfl
    | some e =>
      rw [hs] at he
      have ht : e.timeoutSeconds.filter (·.isFinite) = e.timeoutSeconds := filter_eq_self_iff.2 he
      rw [Option.map_some, ht]
  rw [storedSpec, filter_eq_self_iff.2 hd, filter_eq_self_iff.2 hc, stored_parameters_eq_iff.2 hp,
    he']

/-- A specification that comes back is equal to itself. -/
theorem normal_of_storable {spec : WorkloadSpec} (hp : StorableParameters spec.parameters)
    (hf : spec.isFinite = true) (a b : Bool) : spec.normal a = spec.normal b := by
  simp only [WorkloadSpec.isFinite, Bool.and_eq_true] at hf
  obtain ⟨⟨⟨hest, hd⟩, hc⟩, he⟩ := hf
  have hnumber : ∀ x : Option PyFloat, x.all (·.isFinite) = true →
      Json.isFinite (x.elim .null .float) = true := by
    rintro (_ | x) hx
    · rfl
    · exact hx
  have htimeout : (spec.executionSpec.bind (·.timeoutSeconds)).all (·.isFinite) = true := by
    cases hs : spec.executionSpec with
    | none => rfl
    | some e => rwa [hs] at he
  have hparameters : Json.isFiniteEntries spec.parameters.entries = true := by
    rw [← stored_parameters_eq_iff.2 hp, ← Json.encodeAnyEntries_eq_iff]
    show Json.encodeAnyEntries (List.map _ _) = List.map _ _
    rw [← Codec.encodeAnyEntries_eq_map, Json.encodeAnyEntries_encodeAnyEntries]
  refine congrArg (Prod.mk _) (Json.normal_of_isFinite ?_ a b)
  simp only [Json.isFinite, Json.isFiniteItems, Bool.and_eq_true, Bool.and_true,
    WorkloadSpec.tagsValue, Json.isFiniteEntries_str]
  exact ⟨hest, hnumber _ hd, hnumber _ hc, trivial, trivial, hparameters, hnumber _ htimeout⟩

/-- A specification comes back as it was when it is storable, finite and well formed. -/
theorem validate_storedSpec_eq_iff {spec : WorkloadSpec} :
    (spec.estimatedDurationSeconds.isFinite = true ∧
      (storedSpec spec).validate floatRepr = some spec) ↔
      StorableParameters spec.parameters ∧ spec.validate floatRepr = some spec ∧
        spec.isFinite = true := by
  constructor
  · rintro ⟨hest, h⟩
    obtain ⟨hd, hc, hp, he⟩ := validate_some h
    have hpar : StorableParameters spec.parameters := stored_parameters_eq_iff.1 hp.symm
    have htime : spec.executionSpec.all (fun e => e.timeoutSeconds.all (·.isFinite)) = true := by
      cases hs : spec.executionSpec with
      | none => rfl
      | some e =>
        rw [storedSpec, hs] at he
        have ht : e.timeoutSeconds.filter (·.isFinite) = e.timeoutSeconds :=
          (Option.some.inj he).symm
        have := filter_eq_self_iff.1 ht
        exact this
    have hfin : spec.isFinite = true := by
      simp only [WorkloadSpec.isFinite, Bool.and_eq_true]
      exact ⟨⟨⟨hest, filter_eq_self_iff.1 hd.symm⟩, filter_eq_self_iff.1 hc.symm⟩, htime⟩
    rw [storedSpec_eq_self hpar hfin] at h
    exact ⟨hpar, h, hfin⟩
  · rintro ⟨hpar, hval, hfin⟩
    have hest : spec.estimatedDurationSeconds.isFinite = true := by
      simp only [WorkloadSpec.isFinite, Bool.and_eq_true] at hfin
      exact hfin.1.1.1
    exact ⟨hest, by rw [storedSpec_eq_self hpar hfin, hval]⟩

theorem result_stable_iff {x : WorkloadExecutionResult} :
    Codec.workloadExecutionResult.Stable x ↔ (x.isFinite && x.inBounds) = true := by
  rw [Codec.Stable, Codec.workloadExecutionResult_reload]
  split_ifs with h <;> simp [h]

theorem validate_identity {s t : WorkloadSpec} (h : s.validate floatRepr = some t) :
    t.workloadId = s.workloadId ∧ t.jobId = s.jobId ∧ t.dependsOn = s.dependsOn ∧
      WorkloadSpec.validateHashes s.inputAssetHashes = some t.inputAssetHashes := by
  obtain ⟨e, -, hashes, hhashes, -, rfl⟩ := validate_eq_some.1 h
  exact ⟨rfl, rfl, rfl, hhashes⟩

/-- What it takes for a workload record to come back, and what then comes back. -/
theorem reloadWorkload_eq_some {r r' : WorkloadRecord} : reloadWorkload floatRepr r = some r' ↔
    r.spec.estimatedDurationSeconds.isFinite = true ∧
      ∃ spec, (storedSpec r.spec).validate floatRepr = some spec ∧
        ∃ decision, readColumn Codec.placementDecision
            (r.placementDecision.map Codec.placementDecision.encode) = some decision ∧
          ∃ result, readColumn Codec.workloadExecutionResult
              (r.executionResult.map Codec.workloadExecutionResult.encode) = some result ∧
            { r with
              spec
              placementDecision := decision
              executionResult := result
              speculativeCloned := false } = r' := by
  have hstate : Codec.workloadState.decode (.str r.state.value) = some r.state :=
    Codec.workloadState_reload r.state
  simp only [reloadWorkload, rowToWorkloadRecord, saveWorkload, decode_redactedMetadataJson,
    Codec.ite_some_bind, hstate, Option.bind_eq_bind, Option.bind_some, Option.pure_def,
    Option.ite_none_right_eq_some, Option.bind_eq_some_iff, Option.some.injEq]

/-- **What is read back of a workload record** keeps its identity and its result. -/
theorem reloadWorkload_some {r r' : WorkloadRecord} (h : reloadWorkload floatRepr r = some r') :
    r'.spec.workloadId = r.spec.workloadId ∧ r'.spec.jobId = r.spec.jobId ∧
      r'.spec.dependsOn = r.spec.dependsOn ∧
      WorkloadSpec.validateHashes r.spec.inputAssetHashes = some r'.spec.inputAssetHashes ∧
      r'.executionResult = r.executionResult := by
  obtain ⟨-, spec, hval, decision, -, result, hresult, rfl⟩ := reloadWorkload_eq_some.1 h
  obtain ⟨hid, hjob, hdeps, hhashes⟩ := validate_identity hval
  exact ⟨hid, hjob, hdeps, hhashes, eq_of_readColumn_result hresult⟩

/-- What is read back of a record has the parameters that were stored. -/
theorem reloadWorkload_parameters {r r' : WorkloadRecord}
    (h : reloadWorkload floatRepr r = some r') : r'.spec.parameters =
      (redactWorkloadParameters r.spec.parameters).mapValues fun _ => Json.encodeAny := by
  obtain ⟨-, spec, hval, decision, -, result, -, rfl⟩ := reloadWorkload_eq_some.1 h
  exact (validate_some hval).2.2.1

theorem reloadWorkload_cloned {r r' : WorkloadRecord} (h : reloadWorkload floatRepr r = some r') :
    r'.speculativeCloned = false := by
  obtain ⟨-, spec, -, decision, -, result, -, rfl⟩ := reloadWorkload_eq_some.1 h
  rfl

theorem reloadWorkload_state {r r' : WorkloadRecord} (h : reloadWorkload floatRepr r = some r') :
    r'.state = r.state := by
  obtain ⟨-, spec, -, decision, -, result, -, rfl⟩ := reloadWorkload_eq_some.1 h
  rfl

/-- **A workload record comes back as it was exactly when it is durable.** -/
theorem reloadWorkload_eq_self_iff {r : WorkloadRecord} :
    reloadWorkload floatRepr r = some { r with speculativeCloned := false } ↔
      r.Durable floatRepr := by
  have hspec : _ ∧ (storedSpec r.spec).validate floatRepr = some r.spec ↔ _ :=
    validate_storedSpec_eq_iff
  rw [reloadWorkload_eq_some]
  constructor
  · rintro ⟨hest, spec, hval, decision, hdec, result, hres, h⟩
    obtain rfl : spec = r.spec := congrArg WorkloadRecord.spec h
    obtain rfl : decision = r.placementDecision := congrArg WorkloadRecord.placementDecision h
    obtain rfl : result = r.executionResult := congrArg WorkloadRecord.executionResult h
    obtain ⟨hpar, hval, hfin⟩ := hspec.1 ⟨hest, hval⟩
    refine ⟨hpar, hval, hfin, fun d hd => ?_, fun x hx => ?_⟩
    · exact Codec.placementDecision_stable_iff.1 (readColumn_map_eq_self_iff.1 hdec d hd)
    · exact result_stable_iff.1 (readColumn_map_eq_self_iff.1 hres x hx)
  · rintro ⟨hpar, hval, hfin, hdec, hres⟩
    obtain ⟨hest, hval⟩ := hspec.2 ⟨hpar, hval, hfin⟩
    have hdec' := readColumn_map_eq_self_iff.2 fun d hd =>
      Codec.placementDecision_stable_iff.2 (hdec d hd)
    have hres' := readColumn_map_eq_self_iff.2 fun x hx => result_stable_iff.2 (hres x hx)
    exact ⟨hest, _, hval, _, hdec', _, hres', rfl⟩

/-- A checked execution specification passes its checks again. -/
theorem validateOption_idem {e e' : Option ExecutionSpec}
    (h : ExecutionSpec.validateOption e = some e') : ExecutionSpec.validateOption e' = some e' := by
  cases e with
  | none =>
    obtain rfl := Option.some.inj h
    rfl
  | some e =>
    obtain ⟨e₁, he, rfl⟩ := Option.map_eq_some_iff.1 h
    unfold ExecutionSpec.validate at he
    split_ifs at he with ht
    obtain rfl := Option.some.inj he
    have htime : e.unifyCommandExecutable.timeoutSeconds = e.timeoutSeconds := by
      unfold ExecutionSpec.unifyCommandExecutable
      dsimp only
      split_ifs <;> rfl
    have hidem : e.unifyCommandExecutable.unifyCommandExecutable = e.unifyCommandExecutable := by
      unfold ExecutionSpec.unifyCommandExecutable
      dsimp only
      by_cases hc : e.command.getD "" = "" <;> by_cases he : e.executable = "" <;> simp [hc, he]
    unfold ExecutionSpec.validateOption ExecutionSpec.validate
    dsimp only
    rw [htime, if_pos ht, hidem]
    rfl

/-- Checked hashes pass their checks again. -/
theorem validateHashes_idem {hashes hashes' : Finset String}
    (h : WorkloadSpec.validateHashes hashes = some hashes') :
    WorkloadSpec.validateHashes hashes' = some hashes' := by
  unfold WorkloadSpec.validateHashes at h
  split_ifs at h with hall
  obtain rfl := Option.some.inj h
  have hdigest : ∀ k ∈ hashes.image fun k => (validateSha256Hex k).toOption.getD k,
      validateSha256Hex k = .ok k := by
    intro k hk
    obtain ⟨k₀, hk₀, rfl⟩ := Finset.mem_image.1 hk
    obtain ⟨t, ht⟩ := Option.isSome_iff_exists.1 (hall k₀ hk₀)
    rw [ht, Option.getD_some]
    cases hv : validateSha256Hex k₀ with
    | ok t' =>
      rw [hv] at ht
      obtain rfl := Option.some.inj ht
      exact validateSha256Hex_digest (validateSha256Hex_isDigest hv)
    | error e =>
      rw [hv] at ht
      cases ht
  unfold WorkloadSpec.validateHashes
  rw [if_pos fun k hk => by rw [hdigest k hk]; rfl]
  refine congrArg some ?_
  refine (Finset.image_congr fun k hk => ?_).trans Finset.image_id
  rw [hdigest k hk]
  rfl

/-- **A checked specification passes its checks again.** -/
theorem validate_idem {s t : WorkloadSpec} (h : s.validate floatRepr = some t) :
    t.validate floatRepr = some t := by
  obtain ⟨e, he, hashes, hhashes, hchecks, rfl⟩ := validate_eq_some.1 h
  exact validate_eq_some.2
    ⟨e, validateOption_idem he, hashes, validateHashes_idem hhashes, hchecks, rfl⟩

theorem isFinite_storedSpec {s t : WorkloadSpec} (hest : s.estimatedDurationSeconds.isFinite = true)
    (h : (storedSpec s).validate floatRepr = some t) : t.isFinite = true := by
  obtain ⟨hd, hc, -, he⟩ := validate_some h
  have hfilter : ∀ x : Option PyFloat, (x.filter (·.isFinite)).all (·.isFinite) = true := by
    intro x
    rw [← filter_eq_self_iff]
    cases x with
    | none => rfl
    | some a => cases hf : a.isFinite <;> simp [Option.filter, hf]
  have htest : t.estimatedDurationSeconds = s.estimatedDurationSeconds := by
    obtain ⟨e, -, hashes, -, -, rfl⟩ := validate_eq_some.1 h
    rfl
  have htimes : t.executionSpec.all (fun e => e.timeoutSeconds.all (·.isFinite)) = true := by
    cases ht : t.executionSpec with
    | none => rfl
    | some e =>
      rw [ht, storedSpec] at he
      cases hs : s.executionSpec with
      | none => rw [hs] at he; cases he
      | some e₀ =>
        rw [hs] at he
        have hx : e.timeoutSeconds = e₀.timeoutSeconds.filter (·.isFinite) := Option.some.inj he
        rw [Option.all_some, hx]
        exact hfilter _
  unfold WorkloadSpec.isFinite
  rw [htest, hest, hd, hc, htimes, storedSpec, hfilter, hfilter]
  rfl

/-- **A workload record that came back once is durable** but for what redaction does to its
parameters. -/
theorem durable_reloadWorkload_iff {r r' : WorkloadRecord}
    (h : reloadWorkload floatRepr r = some r') :
    r'.Durable floatRepr ↔ StorableParameters r'.spec.parameters := by
  refine ⟨fun hd => hd.parameters, fun hp => ?_⟩
  obtain ⟨hest, spec, hval, decision, hdecision, result, hresult, rfl⟩ :=
    reloadWorkload_eq_some.1 h
  refine ⟨hp, validate_idem hval, isFinite_storedSpec hest hval, ?_, ?_⟩
  · rcases readColumn_map_eq_some_iff.1 hdecision with ⟨-, rfl⟩ | ⟨a, b, -, rfl, hab⟩
    · exact fun d hd => absurd hd (Option.not_mem_none d)
    · rintro d hd
      obtain rfl := Option.some.inj hd
      exact Codec.placementDecision_stable_iff.1 (Codec.placementDecision_settles _ _ hab)
  · rcases readColumn_map_eq_some_iff.1 hresult with ⟨-, rfl⟩ | ⟨a, b, -, rfl, hab⟩
    · exact fun d hd => absurd hd (Option.not_mem_none d)
    · rintro x hx
      obtain rfl := Option.some.inj hx
      exact result_stable_iff.1 (Codec.workloadExecutionResult_settles _ _ hab)

theorem executionGroup_stable_iff {g : ExecutionGroup} : Codec.executionGroup.Stable g ↔
    g.isValid = true ∧ ∀ d ∈ g.placementDecisions, d.isFinite = true := by
  have hdecisions : Codec.placementDecision.list.reload g.placementDecisions =
      some g.placementDecisions ↔ ∀ d ∈ g.placementDecisions, d.isFinite = true := by
    rw [← Codec.Stable, Codec.list_stable_iff]
    exact forall₂_congr fun d _ => Codec.placementDecision_stable_iff
  rw [Codec.Stable, Codec.executionGroup_reload, Option.filter_eq_some_iff]
  constructor
  · rintro ⟨h, hvalid⟩
    obtain ⟨decisions, hd, heq⟩ := Option.map_eq_some_iff.1 h
    have he : decisions = g.placementDecisions := congrArg ExecutionGroup.placementDecisions heq
    rw [he] at hd
    exact ⟨hvalid, hdecisions.1 hd⟩
  · rintro ⟨hvalid, hfinite⟩
    exact ⟨by rw [hdecisions.2 hfinite, Option.map_some], hvalid⟩

/-- **An attempt comes back as it was exactly when it is durable and its group is valid.** -/
theorem reloadAttempt_eq_self_iff {r : AttemptRecord} : reloadAttempt r = some r ↔
    r.Durable ∧ ∀ g ∈ r.executionGroup, g.isValid = true := by
  rw [reloadAttempt_eq_some]
  constructor
  · rintro ⟨hversion, result, hres, decision, hdec, group, hgroup, h⟩
    obtain rfl : result = r.executionResult := congrArg AttemptRecord.executionResult h
    obtain rfl : decision = r.placementDecision := congrArg AttemptRecord.placementDecision h
    obtain rfl : group = r.executionGroup := congrArg AttemptRecord.executionGroup h
    have hmembers := fun g hg =>
      executionGroup_stable_iff.1 (readColumn_map_eq_self_iff.1 hgroup g hg)
    refine ⟨⟨hversion, fun x hx => ?_, fun d hd => ?_, fun g hg => (hmembers g hg).2⟩,
      fun g hg => (hmembers g hg).1⟩
    · exact result_stable_iff.1 (readColumn_map_eq_self_iff.1 hres x hx)
    · exact Codec.placementDecision_stable_iff.1 (readColumn_map_eq_self_iff.1 hdec d hd)
  · rintro ⟨⟨hversion, hres, hdec, hmembers⟩, hvalid⟩
    have hres' := readColumn_map_eq_self_iff.2 fun x hx => result_stable_iff.2 (hres x hx)
    have hdec' := readColumn_map_eq_self_iff.2 fun d hd =>
      Codec.placementDecision_stable_iff.2 (hdec d hd)
    have hgroup' := readColumn_map_eq_self_iff.2 fun g hg =>
      executionGroup_stable_iff.2 ⟨hvalid g hg, hmembers g hg⟩
    exact ⟨hversion, _, hres', _, hdec', _, hgroup', rfl⟩

/-- **An attempt that came back once comes back again.** -/
theorem reloadAttempt_settles {r r' : AttemptRecord} (h : reloadAttempt r = some r') :
    reloadAttempt r' = some r' := by
  obtain ⟨hversion, result, hresult, decision, hdecision, group, hgroup, rfl⟩ :=
    reloadAttempt_eq_some.1 h
  have hread : ∀ {α : Type} {c : Codec α} {x y : Option α}, c.Settles →
      readColumn c (x.map c.encode) = some y → readColumn c (y.map c.encode) = some y := by
    intro α c x y hc hxy
    rcases readColumn_map_eq_some_iff.1 hxy with ⟨-, rfl⟩ | ⟨a, b, -, rfl, hab⟩
    · rfl
    · refine readColumn_map_eq_self_iff.2 fun b' hb' => ?_
      obtain rfl := Option.some.inj hb'
      exact hc a b hab
  exact reloadAttempt_eq_some.2 ⟨hversion,
    _, hread Codec.workloadExecutionResult_settles hresult, _,
      hread Codec.placementDecision_settles hdecision,
    _, hread Codec.executionGroup_settles hgroup, rfl⟩

end StateStore

end Aidars
