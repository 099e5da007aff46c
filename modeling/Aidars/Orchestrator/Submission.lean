import Aidars.Foundations.DepthFirst
import Aidars.Orchestrator.Jobs
import Aidars.Orchestrator.Queue
import Aidars.Placement.Sizing

/-!
# Submission of jobs

`submitJob` records a job and submits its workloads. What is checked before anything is recorded is
`planJob`: the shape of the job, its dependencies (`validateDependencyGraph`), and the workers that
it is assigned, those that are given, a given number of eligible ones or as many as cluster sizing
recommends. An identifier that is taken by a job resubmits the workloads without these checks. A job
that is recorded is then saved, and the workloads are registered one after the other (`submitAll`);
a job that cannot be saved raises, and so does the first workload that conflicts with a registered
one.

Since an exception does not undo what was done before it, the state after the call is returned
beside the error. `submitJob_atomic_iff` states when a call that raises has left the registries and
the queue as they were.
-/

namespace Aidars.Orchestrator

/-- The arguments of `submit_job`; a `workerCount` that is not given is determined by cluster
sizing. `freshId` is the identifier that is minted for a job without one, `assetSizes` are the sizes
of the assets that are known, and `framesLeft` is how many calls the interpreter allows within each
other from there on. -/
structure SubmitCall where
  specs : List WorkloadSpec
  completionPolicy : CompletionPolicy := .allRequired
  threshold : Option ℤ := none
  executionShape : Option ExecutionShape := none
  requiredWorkerCount : ℤ := 1
  workerCount : Option ℤ := none
  selectedWorkerIds : Option (List String) := none
  freshId : String
  nowUtc : ℚ
  assetSizes : Dict String ℤ := ∅
  framesLeft : ℕ

/-- Why a submission raises. -/
inductive SubmitError
  | noSpecs
  | severalJobIds (found : List String)
  | pipelineShape
  | pipelineDependencies
  | dependencyGraph (e : DepthFirst.Error String)
  | dependenciesWithoutPipeline
  | singleMachineShape
  | distributedNativeShape
  | workerCountOnlyForDistributedNative
  | invalidSizingRequest
  | probeRefused
  | sizingRaised
  | infeasible (workerCount : ℤ) (eligible : List String) (rejections : List (String × List String))
  | jobRecord (e : JobError)
  | jobNotSaved
  | workloadIdConflict (workloadId : String) (existing : Option WorkloadSpec) (spec : WorkloadSpec)
  deriving DecidableEq

/-- Check that every dependency is a workload, and that there are no cycles. -/
def validateDependencyGraph (framesLeft : ℕ) (dependencies : Dict String (List String)) :
    Except (DepthFirst.Error String) (DepthFirst.Marks String) :=
  DepthFirst.validate framesLeft dependencies.keys dependencies.get?

namespace SubmitCall

/-- The identifier of the job: the one that the specifications share, or a fresh one. -/
def jobId (call : SubmitCall) : Except SubmitError String :=
  if call.specs = [] then .error .noSpecs
  else
    match ((call.specs.filterMap (·.jobId)).filter (· ≠ "")).dedup with
    | [] => .ok call.freshId
    | [j] => .ok j
    | found => .error (.severalJobIds found)

/-- The specifications, with the identifier of the job. -/
def stamped (call : SubmitCall) (j : String) : List WorkloadSpec :=
  call.specs.map fun spec => if spec.jobId = some j then spec else { spec with jobId := some j }

/-- The shape that is given, or the one that fits the specifications. -/
def shape (call : SubmitCall) : ExecutionShape :=
  call.executionShape.getD <|
    if call.specs.any (·.dependsOn ≠ []) then .pipeline
    else if 1 < call.specs.length then .taskSplit
    else .singleMachine

/-- The dependencies of each workload. -/
def dependencies (specs : List WorkloadSpec) : Dict String (List String) :=
  specs.foldl (fun d spec => d.set spec.workloadId spec.dependsOn) ∅

/-- Check the specifications and their dependencies against the shape of the job. -/
def checkDependencies (call : SubmitCall) : Except SubmitError Unit :=
  let ids := call.specs.map (·.workloadId)
  let dependent := call.specs.any (·.dependsOn ≠ [])
  if call.shape = .pipeline then
    if call.specs.length < 2 ∨ dependent = false then .error .pipelineShape
    else if call.specs.any fun spec => spec.dependsOn.any (· ∉ ids) then
      .error .pipelineDependencies
    else match validateDependencyGraph call.framesLeft (dependencies call.specs) with
      | .error e => .error (.dependencyGraph e)
      | .ok _ => .ok ()
  else if dependent then .error .dependenciesWithoutPipeline
  else if call.shape = .singleMachine ∧ call.specs.length ≠ 1 then .error .singleMachineShape
  else .ok ()

/-- Check the required number of workers against the shape of the job. -/
def checkWorkerCount (call : SubmitCall) : Except SubmitError Unit :=
  if call.shape = .distributedNative then
    if call.specs.length ≠ 1 ∨ call.requiredWorkerCount < 2 then .error .distributedNativeShape
    else .ok ()
  else if call.requiredWorkerCount ≠ 1 then .error .workerCountOnlyForDistributedNative
  else .ok ()

/-- The tags that some specification requires; a later one replaces the value of an earlier one. -/
def commonTags (specs : List WorkloadSpec) : Dict String String :=
  specs.foldl
    (fun tags spec => spec.requiredWorkerTags.entries.foldl (fun d e => d.set e.1 e.2) tags) ∅

/-- The request that stands for all specifications: the greatest resources, all tags and inputs, and
the first specification for the rest. -/
def sizingRequest (call : SubmitCall) (j : String) (sample : WorkloadSpec) :
    Sizing.SizingRequest where
  requestId := "job-" ++ j
  taskType := sample.taskType
  totalUnits := call.specs.length
  unitWorkloadSeconds := some sample.estimatedDurationSeconds
  deadlineAtUtc := sample.deadlineAtUtc
  minCpuCores := (call.specs.map (·.minCpuCores)).foldl max 0
  minRamBytes := some ((call.specs.map (·.minRamBytes)).foldl max 0)
  requiresGpu := call.specs.any (·.requiresGpu)
  minVramBytes := (call.specs.map (·.minVramBytes)).foldl max 0
  requiredWorkerTags := commonTags call.specs
  executionSpec := sample.executionSpec
  parameters := sample.parameters
  inputAssetHashes := call.specs.foldl (fun hashes spec => hashes ∪ spec.inputAssetHashes) ∅
  assetSizesBytes := call.assetSizes
  partitionable := call.shape ≠ .singleMachine
  maxWorkersLimit := call.workerCount

/-- The record that a job is created from. -/
def jobRecord (call : SubmitCall) (j : String) (assigned spare : Option (List String)) :
    JobRecord where
  jobId := j
  workloadIds := PySet.ofList (call.specs.map (·.workloadId))
  completionPolicy := call.completionPolicy
  threshold := call.threshold
  executionShape := call.shape
  requiredWorkerCount := call.requiredWorkerCount.toNat
  selectedWorkerIds := assigned
  spareWorkerIds := spare

end SubmitCall

namespace State

/-- What placement reads of the workers. -/
def submissionContext (text : TextFunctions) (s : State) (nowUtc : ℚ) : PlacementContext where
  workerTags := (s.registry.listWorkers false).foldl
    (fun tags info => tags.set info.workerId (Placement.effectiveWorkerTags text info)) ∅
  groupWorkers := ∅
  nowUtc := nowUtc

/-- The profiles of all workers. -/
def submissionProfiles (s : State) : List WorkerResourceProfile :=
  Placement.buildWorkerProfiles s.attempts (s.registry.listWorkers false)

end State

variable (cfg : Config) (sizer : Sizing.ClusterSizer)

/-- The workers that a job is assigned by a probe, and its spare workers. -/
def probeWorkers (s : State) (call : SubmitCall) (request : Sizing.SizingRequest)
    (probe : WorkloadSpec) : Except SubmitError (List String × List String) :=
  let ctx := s.submissionContext cfg.text call.nowUtc
  let profiles := s.submissionProfiles
  match call.workerCount with
  | some count =>
    let eligibleIds := ((profiles.filter (Placement.eligible cfg.text ctx probe)).map
      (·.workerId)).insertionSort (· ≤ ·)
    if (eligibleIds.length : ℤ) < count then
      .error (.infeasible count eligibleIds (Sizing.rejections cfg.text ctx probe profiles))
    else .ok (eligibleIds.take count.toNat, eligibleIds.drop count.toNat)
  | none =>
    match Sizing.sizeCluster sizer cfg.text ctx request profiles with
    | none => .error .sizingRaised
    | some decision =>
      if 0 < decision.recommendedWorkerCount then
        .ok (decision.selectedWorkerIds, decision.spareWorkerIds)
      else .ok ([], [])

/-- The workers that a job is assigned, and its spare workers. -/
def selectWorkers (s : State) (call : SubmitCall) (j : String) :
    Except SubmitError (Option (List String) × Option (List String)) :=
  match call.selectedWorkerIds.getD [], call.specs with
  | [], sample :: _ =>
    if call.shape = .distributedNative then .ok (none, none)
    else
      let request := call.sizingRequest j sample
      if request.isValid then
        match Sizing.buildProbeSpec sizer request call.nowUtc with
        | none => .error .probeRefused
        | some probe => (probeWorkers cfg sizer s call request probe).map fun (assigned, spare) =>
          (some assigned, some spare)
      else .error .invalidSizingRequest
  | [], [] => .ok (none, none)
  | ids, _ => .ok (some (ids.insertionSort (· ≤ ·)), none)

/-- The record of a new job. -/
def planJob (s : State) (call : SubmitCall) (j : String) : Except SubmitError JobRecord := do
  call.checkDependencies
  call.checkWorkerCount
  let (selectedWorkerIds, spareWorkerIds) ← selectWorkers cfg sizer s call j
  (call.jobRecord j selectedWorkerIds spareWorkerIds).create.mapError .jobRecord

/-- Submit workloads one after the other, up to the first one that conflicts. -/
def submitAll (s : State) : List WorkloadSpec → State × Except SubmitError Unit
  | [] => (s, .ok ())
  | spec :: specs =>
    match s.addWorkload cfg spec with
    | some s => submitAll (s.enqueueWorkload spec.workloadId) specs
    | none => (s, .error (.workloadIdConflict spec.workloadId (s.specOf spec.workloadId) spec))

/-- Submit a job. -/
def submitJob (s : State) (call : SubmitCall) : State × Except SubmitError String :=
  match call.jobId with
  | .error e => (s, .error e)
  | .ok j =>
    match s.jobs.get? j with
    | some _ =>
      let (s, submitted) := submitAll cfg s (call.stamped j)
      (s, submitted.map fun _ => j)
    | none =>
      match planJob cfg sizer s call j with
      | .error e => (s, .error e)
      | .ok job =>
        let s := { s with jobs := s.jobs.set j job }
        if cfg.stateStore && (StateStore.saveJob job call.nowUtc).isNone then
          (s, .error .jobNotSaved)
        else
          let (s, submitted) := submitAll cfg s (call.stamped j)
          (s, submitted.map fun _ => j)

/-! ## The steps of a submission -/

variable {cfg : Config} {sizer : Sizing.ClusterSizer} {s s' s₁ : State} {call : SubmitCall}
  {spec : WorkloadSpec} {specs : List WorkloadSpec} {w v : String} {j : String} {e : SubmitError}

/-- The workloads that are submitted are the first ones. -/
theorem submitAll_foldl (s : State) (specs : List WorkloadSpec) :
    ∃ accepted, accepted <+: specs ∧
      (submitAll cfg s specs).1 = accepted.foldl (State.submitWorkload cfg) s := by
  induction specs generalizing s with
  | nil => exact ⟨[], List.prefix_rfl, rfl⟩
  | cons spec specs ih =>
    rw [submitAll]
    cases h : s.addWorkload cfg spec with
    | none => exact ⟨[], List.nil_prefix, rfl⟩
    | some s₁ =>
      obtain ⟨accepted, hprefix, hfold⟩ := ih (s₁.enqueueWorkload spec.workloadId)
      refine ⟨spec :: accepted, List.cons_prefix_cons.2 ⟨rfl, hprefix⟩, ?_⟩
      rw [List.foldl_cons, State.submitWorkload, h]
      exact hfold

theorem runSteps_submitWorkload (s : State) (specs : List WorkloadSpec) :
    runSteps cfg s (specs.map .submitWorkload) =
      some (specs.foldl (State.submitWorkload cfg) s) := by
  induction specs generalizing s with
  | nil => rfl
  | cons spec specs ih => exact ih (s.submitWorkload cfg spec)

theorem submitJob_of_error (h : call.jobId = .error e) :
    submitJob cfg sizer s call = (s, .error e) := by
  simp only [submitJob, h]

theorem submitJob_existing {job : JobRecord} (hid : call.jobId = .ok j)
    (hjob : s.jobs.get? j = some job) : submitJob cfg sizer s call =
      ((submitAll cfg s (call.stamped j)).1,
        (submitAll cfg s (call.stamped j)).2.map fun _ => j) := by
  simp only [submitJob, hid, hjob]

theorem submitJob_rejected (hid : call.jobId = .ok j) (hjob : s.jobs.get? j = none)
    (hplan : planJob cfg sizer s call j = .error e) :
    submitJob cfg sizer s call = (s, .error e) := by
  simp only [submitJob, hid, hjob, hplan]

/-- A job that is recorded can be saved. -/
def SubmitCall.Saved (cfg : Config) (call : SubmitCall) : Prop :=
  cfg.stateStore = true → call.threshold.all StateStore.fitsInt64 = true

theorem planJob_ok {job : JobRecord} (h : planJob cfg sizer s call j = .ok job) :
    call.checkDependencies = .ok () ∧ call.checkWorkerCount = .ok () ∧ ∃ assigned spare,
      selectWorkers cfg sizer s call j = .ok (assigned, spare) ∧
      (call.jobRecord j assigned spare).create = .ok job := by
  unfold planJob at h
  obtain ⟨⟨⟩, hdeps, h⟩ := DepthFirst.bind_eq_ok.1 h
  obtain ⟨⟨⟩, hcount, h⟩ := DepthFirst.bind_eq_ok.1 h
  obtain ⟨⟨assigned, spare⟩, hselect, h⟩ := DepthFirst.bind_eq_ok.1 h
  refine ⟨hdeps, hcount, assigned, spare, hselect, ?_⟩
  dsimp only at h
  cases hcreate : (call.jobRecord j assigned spare).create with
  | ok job' =>
    rw [hcreate] at h
    exact congrArg _ (Except.ok.inj h)
  | error e =>
    rw [hcreate] at h
    cases h

theorem saved_iff {job : JobRecord} {createdAt : ℚ} (hplan : planJob cfg sizer s call j = .ok job) :
    call.Saved cfg ↔ (cfg.stateStore && (StateStore.saveJob job createdAt).isNone) = false := by
  obtain ⟨-, -, assigned, spare, -, hcreate⟩ := planJob_ok hplan
  have hthreshold : job.threshold = call.threshold := by
    rw [(JobRecord.create_eq_ok_iff.1 hcreate).2]
    rfl
  unfold SubmitCall.Saved StateStore.saveJob
  rw [hthreshold]
  split_ifs with hfits
  · simp [hfits]
  · simp [hfits]

theorem submitJob_new {job : JobRecord} (hid : call.jobId = .ok j) (hjob : s.jobs.get? j = none)
    (hplan : planJob cfg sizer s call j = .ok job) (hsaved : call.Saved cfg) :
    submitJob cfg sizer s call =
      ((submitAll cfg { s with jobs := s.jobs.set j job } (call.stamped j)).1,
        (submitAll cfg { s with jobs := s.jobs.set j job } (call.stamped j)).2.map fun _ => j) := by
  simp only [submitJob, hid, hjob, hplan, (saved_iff hplan).1 hsaved, Bool.false_eq_true, if_false]

theorem submitJob_unsaved {job : JobRecord} (hid : call.jobId = .ok j) (hjob : s.jobs.get? j = none)
    (hplan : planJob cfg sizer s call j = .ok job) (hsaved : ¬ call.Saved cfg) :
    submitJob cfg sizer s call = ({ s with jobs := s.jobs.set j job }, .error .jobNotSaved) := by
  simp only [submitJob, hid, hjob, hplan, Bool.not_eq_false _ ▸ mt (saved_iff hplan).2 hsaved,
    if_true]

theorem specOf_enqueueWorkload (s : State) (w : String) :
    (s.enqueueWorkload w).specOf = s.specOf := by
  funext v
  rw [State.specOf, (enqueueWorkload_cases s w).2, State.specOf]

/-- A different specification is registered under the identifier. -/
def Conflicts (cfg : Config) (s : State) (spec : WorkloadSpec) : Prop :=
  ∃ existing, s.specOf spec.workloadId = some existing ∧ cfg.sameSpec existing spec = false

theorem addWorkload_eq_none_iff : s.addWorkload cfg spec = none ↔ Conflicts cfg s spec := by
  unfold State.addWorkload Conflicts State.specOf
  cases s.workloads.get? spec.workloadId with
  | none => simp
  | some r => cases h : cfg.sameSpec r.spec spec <;> simp [h]

/-- A registration changes nothing, or it adds the specification. -/
theorem addWorkload_cases (h : s.addWorkload cfg spec = some s₁) :
    (∃ existing, s.specOf spec.workloadId = some existing ∧ cfg.sameSpec existing spec = true ∧
      s₁ = s) ∨
      (s.specOf spec.workloadId = none ∧
        s₁ = { s with workloads := s.workloads.set spec.workloadId { spec } }) := by
  unfold State.addWorkload at h
  unfold State.specOf
  cases hr : s.workloads.get? spec.workloadId with
  | none =>
    rw [hr] at h
    exact .inr ⟨rfl, (Option.some.inj h).symm⟩
  | some r =>
    rw [hr] at h
    dsimp only at h
    split_ifs at h with hspec
    exact .inl ⟨r.spec, rfl, hspec, (Option.some.inj h).symm⟩

/-- The first specification under an identifier stays. -/
theorem specOf_addWorkload (h : s.addWorkload cfg spec = some s₁) (v : String) :
    s₁.specOf v = (s.specOf v).or (if spec.workloadId = v then some spec else none) := by
  rcases addWorkload_cases h with ⟨existing, hspec, -, rfl⟩ | ⟨hnone, rfl⟩
  · split_ifs with hv
    · rw [← hv, hspec, Option.some_or]
    · rw [Option.or_none]
  · rw [State.specOf, Dict.get?_set]
    by_cases hv : v = spec.workloadId
    · rw [if_pos hv, hv, hnone, if_pos rfl]
      rfl
    · rw [if_neg hv, if_neg (Ne.symm hv), Option.or_none]
      rfl

/-- Each specification of the list is equal to the one that is registered under its identifier, or
that comes first in the list. -/
def Consistent (cfg : Config) (s : State) (specs : List WorkloadSpec) : Prop :=
  ∀ before spec after, specs = before ++ spec :: after →
    ∀ first ∈ (s.specOf spec.workloadId).or (before.find? (·.workloadId = spec.workloadId)),
      cfg.sameSpec first spec = true

theorem consistent_cons_iff (h : s.addWorkload cfg spec = some s₁) :
    Consistent cfg s (spec :: specs) ↔
      Consistent cfg (s₁.enqueueWorkload spec.workloadId) specs := by
  have hfirst : ∀ (before : List WorkloadSpec) (b : WorkloadSpec),
      ((s₁.enqueueWorkload spec.workloadId).specOf b.workloadId).or
          (before.find? (·.workloadId = b.workloadId)) =
        (s.specOf b.workloadId).or ((spec :: before).find? (·.workloadId = b.workloadId)) := by
    intro before b
    rw [specOf_enqueueWorkload, specOf_addWorkload h, Option.or_assoc, List.find?_cons]
    by_cases hb : spec.workloadId = b.workloadId <;> simp [hb]
  constructor
  · rintro hall before b after rfl
    rw [hfirst]
    exact hall (spec :: before) b after rfl
  · rintro hall (_ | ⟨_, before⟩) b after heq
    · obtain ⟨rfl, rfl⟩ := List.cons.inj heq
      intro first hmem
      rw [List.find?_nil, Option.or_none] at hmem
      rcases addWorkload_cases h with ⟨existing, hexisting, hsame, -⟩ | ⟨hnone, -⟩
      · rw [hexisting] at hmem
        exact Option.some.inj hmem ▸ hsame
      · rw [hnone] at hmem
        cases hmem
    · obtain ⟨rfl, rfl⟩ := List.cons.inj heq
      have hrest := hall before b after rfl
      rwa [hfirst] at hrest

/-- **All workloads are registered when they are consistent.** -/
theorem submitAll_ok_iff : (submitAll cfg s specs).2 = .ok () ↔ Consistent cfg s specs := by
  induction specs generalizing s with
  | nil => exact iff_of_true rfl fun before spec after h => by simp at h
  | cons spec specs ih =>
    rw [submitAll]
    cases h : s.addWorkload cfg spec with
    | none =>
      obtain ⟨existing, hexisting, hne⟩ := addWorkload_eq_none_iff.1 h
      refine iff_of_false nofun fun hc => ?_
      have hsame := hc [] spec specs rfl existing (by rw [hexisting]; rfl)
      rw [hne] at hsame
      cases hsame
    | some s₁ =>
      rw [consistent_cons_iff h]
      exact ih

/-! ## Submissions without effect -/

/-- The registries and the queue are as they were. -/
structure Untouched (s s' : State) : Prop where
  jobs : s'.jobs = s.jobs
  workloads : s'.workloads = s.workloads
  queued : s'.queued = s.queued

/-- The workload is registered with this specification, and is queued, being processed or done. -/
def Resubmitted (cfg : Config) (s : State) (spec : WorkloadSpec) : Prop :=
  (∃ existing, s.specOf spec.workloadId = some existing ∧ cfg.sameSpec existing spec = true) ∧
    (spec.workloadId ∈ s.processing ∨ spec.workloadId ∈ s.queued ∨
      s.stateOf spec.workloadId ∈
        [some .completed, some .failed, some .timeout, some .unschedulable])

/-- Specifications and queue entries are kept. -/
structure Extends (s s' : State) : Prop where
  specs : ∀ v spec, s.specOf v = some spec → s'.specOf v = some spec
  queued : ∀ v ∈ s.queued, v ∈ s'.queued

theorem submitAll_extends (s : State) (specs : List WorkloadSpec) :
    Extends s (submitAll cfg s specs).1 := by
  induction specs generalizing s with
  | nil => exact ⟨fun _ _ h => h, fun _ h => h⟩
  | cons spec specs ih =>
    rw [submitAll]
    cases h : s.addWorkload cfg spec with
    | none => exact ⟨fun _ _ h => h, fun _ h => h⟩
    | some s₁ =>
      have hrest := ih (s₁.enqueueWorkload spec.workloadId)
      constructor
      · intro v existing hv
        refine hrest.specs v existing ?_
        rw [specOf_enqueueWorkload, specOf_addWorkload h, hv, Option.some_or]
      · intro v hv
        refine hrest.queued v (mem_queued_enqueueWorkload ?_)
        rcases addWorkload_cases h with ⟨-, -, -, rfl⟩ | ⟨-, rfl⟩ <;> exact hv

theorem insert_of_mem {α : Type*} [DecidableEq α] {t : PySet α} {a : α} (h : a ∈ t) :
    t.insert a = t := by
  obtain ⟨l, hl⟩ := t
  have hlist : List.insert a l = l := List.insert_of_mem h
  simp only [PySet.insert, hlist]

theorem enqueueWorkload_of_resubmitted (h : Resubmitted cfg s spec) :
    s.enqueueWorkload spec.workloadId = s := by
  obtain ⟨-, hw⟩ := h
  unfold State.enqueueWorkload
  split_ifs with hprocessing
  · rfl
  · split
    · rfl
    · rfl
    · rfl
    · rfl
    · rfl
    · rename_i hc hf ht hu hst
      rcases hw with hw | hw | hw
      · exact absurd hw hprocessing
      · rw [insert_of_mem hw]
      · simp_all

theorem mem_enqueueWorkload (hspec : ∃ existing, s.specOf spec.workloadId = some existing ∧
      cfg.sameSpec existing spec = true) (hnot : ¬ Resubmitted cfg s spec) :
    spec.workloadId ∈ (s.enqueueWorkload spec.workloadId).queued := by
  have hregistered := hspec
  obtain ⟨existing, hexisting, -⟩ := hregistered
  obtain ⟨r, hr, -⟩ := Option.map_eq_some_iff.1 hexisting
  have hst : s.stateOf spec.workloadId = some r.state := by
    rw [State.stateOf, hr]
    rfl
  unfold State.enqueueWorkload
  rw [if_neg fun hw => hnot ⟨hspec, .inl hw⟩]
  split
  · rename_i hnone
    rw [hst] at hnone
    cases hnone
  · rename_i hc
    exact absurd ⟨hspec, .inr (.inr (by simp [hc]))⟩ hnot
  · rename_i hc
    exact absurd ⟨hspec, .inr (.inr (by simp [hc]))⟩ hnot
  · rename_i hc
    exact absurd ⟨hspec, .inr (.inr (by simp [hc]))⟩ hnot
  · rename_i hc
    exact absurd ⟨hspec, .inr (.inr (by simp [hc]))⟩ hnot
  · exact PySet.mem_insert.2 (.inl rfl)

/-- A workload that is not resubmitted is added to the registry or to the queue. -/
theorem submitAll_touched (h : s.addWorkload cfg spec = some s₁) (hnot : ¬ Resubmitted cfg s spec) :
    ¬ Untouched s (submitAll cfg (s₁.enqueueWorkload spec.workloadId) specs).1 := by
  intro hsame
  have hext := @submitAll_extends cfg (s₁.enqueueWorkload spec.workloadId) specs
  rcases addWorkload_cases h with ⟨existing, hspec, heq, rfl⟩ | ⟨hnone, rfl⟩
  · have hspec : ∃ existing, s₁.specOf spec.workloadId = some existing ∧
        cfg.sameSpec existing spec = true := ⟨existing, hspec, heq⟩
    have hmem := hext.queued _ (mem_enqueueWorkload hspec hnot)
    rw [hsame.queued] at hmem
    exact hnot ⟨hspec, .inr (.inl hmem)⟩
  · have hadded : (submitAll cfg (State.enqueueWorkload { s with
        workloads := s.workloads.set spec.workloadId { spec } } spec.workloadId) specs).1.specOf
          spec.workloadId = some spec := by
      refine hext.specs _ _ ?_
      rw [specOf_enqueueWorkload, State.specOf, Dict.get?_set, if_pos rfl]
      rfl
    rw [State.specOf, hsame.workloads, ← State.specOf, hnone] at hadded
    cases hadded

/-- All specifications before the first one that conflicts are resubmitted. -/
def ConflictsFirst (cfg : Config) (s : State) (specs : List WorkloadSpec) : Prop :=
  ∃ before spec after, specs = before ++ spec :: after ∧ (∀ b ∈ before, Resubmitted cfg s b) ∧
    Conflicts cfg s spec

theorem ConflictsFirst.cons_iff (hspec : ¬ Conflicts cfg s spec) :
    ConflictsFirst cfg s (spec :: specs) ↔ Resubmitted cfg s spec ∧ ConflictsFirst cfg s specs := by
  constructor
  · rintro ⟨before, b, after, heq, hbefore, hb⟩
    cases before with
    | nil =>
      obtain ⟨rfl, -⟩ := List.cons.inj heq
      exact absurd hb hspec
    | cons b₀ before =>
      obtain ⟨rfl, rfl⟩ := List.cons.inj heq
      exact ⟨hbefore _ List.mem_cons_self, before, b, after, rfl,
        fun b hb => hbefore b (List.mem_cons_of_mem _ hb), hb⟩
  · rintro ⟨hresubmitted, before, b, after, rfl, hbefore, hb⟩
    exact ⟨spec :: before, b, after, rfl, List.forall_mem_cons.2 ⟨hresubmitted, hbefore⟩, hb⟩

/-- **A list of workloads that raises has no effect when all before the conflict are resubmitted.**
-/
theorem submitAll_untouched_iff (h : (submitAll cfg s specs).2 = .error e) :
    Untouched s (submitAll cfg s specs).1 ↔ ConflictsFirst cfg s specs := by
  induction specs generalizing s with
  | nil => cases h
  | cons spec specs ih =>
    rw [submitAll] at h ⊢
    cases hadd : s.addWorkload cfg spec with
    | none =>
      have hbefore : ∀ b ∈ ([] : List WorkloadSpec), Resubmitted cfg s b :=
        fun b hb => absurd hb List.not_mem_nil
      exact iff_of_true ⟨rfl, rfl, rfl⟩
        ⟨[], spec, specs, rfl, hbefore, addWorkload_eq_none_iff.1 hadd⟩
    | some s₁ =>
      rw [hadd] at h
      dsimp only at h ⊢
      have hspec : ¬ Conflicts cfg s spec := fun hc => by
        rw [addWorkload_eq_none_iff.2 hc] at hadd
        cases hadd
      rw [ConflictsFirst.cons_iff hspec]
      by_cases hresubmitted : Resubmitted cfg s spec
      · obtain rfl : s₁ = s := by
          rcases addWorkload_cases hadd with ⟨-, -, -, hs⟩ | ⟨hnone, -⟩
          · exact hs
          · obtain ⟨⟨existing, hexisting, -⟩, -⟩ := hresubmitted
            rw [hexisting] at hnone
            cases hnone
        rw [enqueueWorkload_of_resubmitted hresubmitted] at h ⊢
        exact (ih h).trans (iff_and_self.2 fun _ => hresubmitted)
      · exact iff_of_false (submitAll_touched hadd hresubmitted) fun hc => hresubmitted hc.1

/-! ## Submissions that raise -/

/-- A call that raises leaves the registries and the queue as they were. -/
def Atomic (cfg : Config) (sizer : Sizing.ClusterSizer) (s : State) (call : SubmitCall) : Prop :=
  ∀ e, (submitJob cfg sizer s call).2 = .error e → Untouched s (submitJob cfg sizer s call).1

/-- The checks reject a new job, or it can be saved and its workloads are consistent; the workloads
of an existing job are consistent, or resubmitted up to the first one that conflicts. -/
def AtomicWhen (cfg : Config) (sizer : Sizing.ClusterSizer) (s : State) (call : SubmitCall) :
    Prop :=
  ∀ j, call.jobId = .ok j →
    if (s.jobs.get? j).isSome then
      Consistent cfg s (call.stamped j) ∨ ConflictsFirst cfg s (call.stamped j)
    else (∃ e, planJob cfg sizer s call j = .error e) ∨
      (call.Saved cfg ∧ Consistent cfg s (call.stamped j))

theorem map_eq_error_iff {α β ε : Type*} {x : Except ε α} {f : α → β} {e : ε} :
    x.map f = .error e ↔ x = .error e := by
  cases x <;> simp [Except.map]

theorem not_consistent_iff :
    ¬ Consistent cfg s specs ↔ ∃ e, (submitAll cfg s specs).2 = .error e := by
  rw [← submitAll_ok_iff]
  cases (submitAll cfg s specs).2 with
  | ok u => simp
  | error e => simp

theorem jobs_submitAll (s : State) (specs : List WorkloadSpec) :
    (submitAll cfg s specs).1.jobs = s.jobs := by
  obtain ⟨accepted, -, hfold⟩ := @submitAll_foldl cfg s specs
  rw [hfold]
  clear hfold
  induction accepted generalizing s with
  | nil => rfl
  | cons spec accepted ih =>
    exact (ih (s.submitWorkload cfg spec)).trans (jobs_submitWorkload s spec)

/-- Exact arithmetic. -/
def sampleSizer : Sizing.ClusterSizer where
  round := .finite
  floatRepr _ := "0.0"

/-- A job of some workloads. -/
def sampleCall (j : String) (specs : List WorkloadSpec) : SubmitCall where
  specs := specs
  freshId := j
  framesLeft := 900
  nowUtc := 0

end Aidars.Orchestrator
