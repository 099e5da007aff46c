import Aidars.Orchestrator.Submission

/-!
# The probe of a submission

The workers that a job is confined to are selected with one probe that stands for all its workloads.
The probe carries the greatest resources and all tags of the workloads, but its task and its
parameters are those of the first one, and requirements on the GPU or the cost are not carried over.

`CarriedOver` lists what a workload may ask for so that every worker that is eligible for the probe
is eligible for it (`CarriedOver.eligible`). `probe_sound_iff` states that this is exact: unless no
cluster lets the job pass, a job whose workloads ask for more is confined, in some cluster, to a
worker that one of them is not eligible for.
-/

namespace Aidars.Orchestrator

variable {cfg : Config} {sizer : Sizing.ClusterSizer} {s : State} {call : SubmitCall}
  {text : TextFunctions} {ctx : PlacementContext} {spec probe sample : WorkloadSpec}
  {specs : List WorkloadSpec} {p : WorkerResourceProfile} {tags : Dict String String}
  {j k cap : String}

/-! ## Capabilities -/

/-- The capabilities that a task type or its executable needs. -/
def capabilityNeeds (text : TextFunctions) (spec : WorkloadSpec) : List String :=
  let task := text.lower spec.taskType
  let exec := match spec.executionSpec with
    | some e => if e.executable = "" then "" else text.lower (Placement.basename e.executable)
    | none => ""
  let liveOllama := Placement.truthy (spec.parameters.get? "live_ollama") ||
    spec.executionSpec.any fun e => e.env.get? "AIDAR_LLM_LIVE" = some "1"
  (if ["blender", "blender_render"].contains task || ["blender", "blender.exe"].contains exec then
    ["blender"] else []) ++
  (if ["ffmpeg", "video_rendering", "video_transcode"].contains task ||
    ["ffmpeg", "ffmpeg.exe"].contains exec then ["ffmpeg"] else []) ++
  (if ["ml_training", "pytorch"].contains task then ["pytorch"] else []) ++
  (if ["llm", "llm_inference"].contains task && liveOllama then ["ollama"] else [])

/-- A tag that denies a capability is one of the capability tags. -/
theorem any_keys_of_denied (h : tags.get? ("cap:" ++ cap) = some "false") :
    tags.keys.any (fun k => k.toList.take 4 = "cap:".toList) = true := by
  refine List.any_eq_true.2 ⟨"cap:" ++ cap, List.mem_map_of_mem (Dict.mem_entries.2 h), ?_⟩
  rw [String.toList_append, decide_eq_true_iff]
  exact List.take_left' rfl

theorem missing_eq_nil_iff {c : Bool} {reason : String} :
    (if (c && decide (tags.get? ("cap:" ++ cap) = some "false")) = true then [reason] else []) =
      [] ↔
      ∀ k ∈ (if c = true then [cap] else []), tags.get? ("cap:" ++ k) ≠ some "false" := by
  cases c <;> simp

theorem missing_append_eq_nil_iff {r₁ r₂ l₁ l₂ : List String} {P : String → Prop}
    (h₁ : r₁ = [] ↔ ∀ k ∈ l₁, P k) (h₂ : r₂ = [] ↔ ∀ k ∈ l₂, P k) :
    r₁ ++ r₂ = [] ↔ ∀ k ∈ l₁ ++ l₂, P k := by
  rw [List.append_eq_nil_iff, List.forall_mem_append, h₁, h₂]

/-- No capability is missing when none that is needed is denied. -/
theorem missingCapabilities_eq_nil_iff : Placement.missingCapabilities text spec tags = [] ↔
    ∀ cap ∈ capabilityNeeds text spec, tags.get? ("cap:" ++ cap) ≠ some "false" := by
  unfold Placement.missingCapabilities capabilityNeeds
  by_cases hkeys : tags.keys.any (fun k => k.toList.take 4 = "cap:".toList) = true
  · rw [if_pos hkeys]
    exact missing_append_eq_nil_iff (missing_append_eq_nil_iff (missing_append_eq_nil_iff
      missing_eq_nil_iff missing_eq_nil_iff) missing_eq_nil_iff) missing_eq_nil_iff
  · rw [if_neg hkeys]
    exact iff_of_true rfl fun cap _ hdenied => hkeys (any_keys_of_denied hdenied)

theorem eligible_iff : Placement.eligible text ctx spec p = true ↔
    (∀ g ∈ Placement.gates text ctx spec p, g.1 = true) ∧
      ∀ cap ∈ capabilityNeeds text spec,
        ((ctx.workerTags.get? p.workerId).getD ∅).get? ("cap:" ++ cap) ≠ some "false" := by
  rw [← missingCapabilities_eq_nil_iff, Placement.eligible, decide_eq_true_iff,
    Placement.rejectionReasons, List.append_eq_nil_iff, List.map_eq_nil_iff, List.filter_eq_nil_iff]
  simp

/-! ## What the probe carries -/

/-- No requirement is made of the model, the driver or the capability of a GPU. -/
def PlainGpu (spec : WorkloadSpec) : Prop :=
  ∀ s ∈ [spec.requiredGpuVendor, spec.requiredGpuModel, spec.minComputeCapability,
    spec.requiredDriverVersion, spec.requiredRuntimeCompatibility], Placement.isSet s = false

instance (spec : WorkloadSpec) : Decidable (PlainGpu spec) :=
  inferInstanceAs (Decidable (∀ s ∈ _, _))

/-- The probe of some workloads carries what a workload asks for: it makes no requirement of the GPU
but its memory and sets no bound to the cost, its tags are kept, and the capabilities that it needs
are needed by the first workload or made sure of by a tag. -/
structure CarriedOver (text : TextFunctions) (specs : List WorkloadSpec)
    (sample spec : WorkloadSpec) :
    Prop where
  gpu : PlainGpu spec
  cost : ∀ c ∈ spec.maxCostPerHour, c = .posInf
  tags : Placement.tagResult (SubmitCall.commonTags specs) spec.requiredWorkerTags = true
  capabilities : ∀ cap ∈ capabilityNeeds text spec, cap ∈ capabilityNeeds text sample ∨
    ∃ v, (SubmitCall.commonTags specs).get? ("cap:" ++ cap) = some v ∧ v ≠ "false"

/-- The probe of a request for some workloads, without its identifier and the estimates. -/
structure ProbeOf (text : TextFunctions) (specs : List WorkloadSpec) (sample probe : WorkloadSpec) :
    Prop where
  cpu : probe.minCpuCores = (specs.map (·.minCpuCores)).foldl max 0
  ram : probe.minRamBytes = (specs.map (·.minRamBytes)).foldl max 0
  vram : probe.minVramBytes = (specs.map (·.minVramBytes)).foldl max 0
  requiresGpu : probe.requiresGpu = specs.any (·.requiresGpu)
  plain : PlainGpu probe
  cost : probe.maxCostPerHour = none
  affinity : probe.affinityMode = .none
  tags : probe.requiredWorkerTags = SubmitCall.commonTags specs
  needs : capabilityNeeds text probe = capabilityNeeds text sample

theorem probeOf_buildProbeSpec {sizer : Sizing.ClusterSizer} {now : ℚ}
    (h : Sizing.buildProbeSpec sizer (call.sizingRequest j sample) now = some probe) :
    ProbeOf text call.specs sample probe := by
  simp only [Sizing.buildProbeSpec, Option.bind_eq_bind, Option.bind_eq_some_iff] at h
  obtain ⟨mode, hmode, hashes, -, h⟩ := h
  obtain rfl := Option.some.inj (hmode.symm.trans (rfl : _ = some AffinityMode.none))
  split_ifs at h
  obtain rfl := Option.some.inj h
  have hplain : ∀ s ∈ [(none : Option String), none, none, none, none],
      Placement.isSet s = false := by decide
  exact ⟨rfl, rfl, rfl, rfl, hplain, rfl, rfl, rfl, rfl⟩

theorem le_foldl_max {l : List ℕ} {a b : ℕ} (h : a ≤ b ∨ a ∈ l) : a ≤ l.foldl max b := by
  induction l generalizing b with
  | nil => exact h.resolve_right List.not_mem_nil
  | cons c l ih =>
    refine ih ?_
    rcases h with h | h
    · exact .inl (le_max_of_le_left h)
    · rcases List.mem_cons.1 h with rfl | h
      · exact .inl (le_max_right b a)
      · exact .inr h

/-- A required tag is a tag with that value. -/
theorem tagResult_iff {required : Dict String String} : Placement.tagResult tags required = true ↔
    ∀ k v, required.get? k = some v → tags.get? k = some v := by
  rw [Placement.tagResult, List.all_eq_true]
  constructor
  · exact fun h k v hv => of_decide_eq_true (h (k, v) (Dict.mem_entries.2 hv))
  · exact fun h e he => decide_eq_true (h e.1 e.2 (Dict.mem_entries.1 he))

theorem needsGpu_of_plain (h : PlainGpu spec) :
    Placement.needsGpu spec = (spec.requiresGpu || decide (0 < spec.minVramBytes)) := by
  simp only [PlainGpu, List.forall_mem_cons] at h
  obtain ⟨h₁, h₂, h₃, h₄, h₅, -⟩ := h
  rw [Placement.needsGpu, h₁, h₂, h₃, h₄, h₅]
  simp

theorem tags_of_gates (hprobe : ProbeOf text specs sample probe)
    (hgates : ∀ g ∈ Placement.gates text ctx probe p, g.1 = true) (k v : String)
    (hv : (SubmitCall.commonTags specs).get? k = some v) :
    ((ctx.workerTags.get? p.workerId).getD ∅).get? k = some v := by
  have hgate : Placement.tagResult ((ctx.workerTags.get? p.workerId).getD ∅)
      probe.requiredWorkerTags = true :=
    hgates (Placement.tagResult ((ctx.workerTags.get? p.workerId).getD ∅)
      probe.requiredWorkerTags, "REQUIRED_WORKER_TAG_MISMATCH")
      (by simp only [Placement.gates, List.mem_cons, true_or, or_true])
  rw [hprobe.tags] at hgate
  exact tagResult_iff.1 hgate k v hv

/-- **A worker that is eligible for the probe is eligible for what the probe carries.** -/
theorem CarriedOver.eligible (hc : CarriedOver text specs sample spec) (hspec : spec ∈ specs)
    (hprobe : ProbeOf text specs sample probe) (hgroup : ctx.groupWorkers = ∅)
    (h : Placement.eligible text ctx probe p = true) :
    Placement.eligible text ctx spec p = true := by
  rw [eligible_iff] at h ⊢
  obtain ⟨hgates, hcap⟩ := h
  have hplain := hc.gpu
  simp only [PlainGpu, List.forall_mem_cons] at hplain
  obtain ⟨hvendor, hmodel, hcompute, hdriver, hruntime, -⟩ := hplain
  have hcpu : spec.minCpuCores ≤ probe.minCpuCores :=
    hprobe.cpu ▸ le_foldl_max (.inr (List.mem_map_of_mem hspec))
  have hram : spec.minRamBytes ≤ probe.minRamBytes :=
    hprobe.ram ▸ le_foldl_max (.inr (List.mem_map_of_mem hspec))
  have hvram : spec.minVramBytes ≤ probe.minVramBytes :=
    hprobe.vram ▸ le_foldl_max (.inr (List.mem_map_of_mem hspec))
  have hgpu : Placement.needsGpu spec = true → Placement.needsGpu probe = true := by
    rw [needsGpu_of_plain hc.gpu, needsGpu_of_plain hprobe.plain, hprobe.requiresGpu]
    simp only [Bool.or_eq_true, decide_eq_true_eq, List.any_eq_true]
    rintro (hgpu | hmem)
    · exact .inl ⟨spec, hspec, hgpu⟩
    · exact .inr (hmem.trans_le hvram)
  constructor
  · simp only [Placement.gates, List.forall_mem_cons] at hgates ⊢
    obtain ⟨-, gactive, ghealth, gexecute, gtelemetry, gcpu, gram, gramTotal, ggpu, gvram,
      gvramTotal,
      gslots, -, -, -, -, -, -, gtags, -⟩ := hgates
    refine ⟨?_, gactive, ghealth, gexecute, gtelemetry, ?_, ?_, gramTotal, ?_, ?_, gvramTotal,
      gslots,
      ?_, ?_, ?_, ?_, ?_, ?_, ?_, List.forall_mem_nil _⟩
    · simp [Placement.affinityMatch, hgroup]
    · exact decide_eq_true ((Nat.cast_le.2 hcpu).trans (of_decide_eq_true gcpu))
    · simp only [Bool.or_eq_true, decide_eq_true_eq] at gram ⊢
      omega
    · cases hneeds : Placement.needsGpu spec with
      | false => rfl
      | true =>
        rw [hgpu hneeds] at ggpu
        exact ggpu
    · simp only [Bool.or_eq_true, decide_eq_true_eq] at gvram ⊢
      omega
    · cases hcost : spec.maxCostPerHour with
      | none => rfl
      | some c =>
        rw [hc.cost c hcost]
        rfl
    · rw [hvendor]
      rfl
    · rw [hmodel]
      rfl
    · rw [hcompute]
      rfl
    · rw [hdriver]
      rfl
    · rw [hruntime]
      rfl
    · rw [hprobe.tags] at gtags
      exact tagResult_iff.2 fun k v hv => tagResult_iff.1 gtags k v (tagResult_iff.1 hc.tags k v hv)
  · intro cap hneed hdenied
    rcases hc.capabilities cap hneed with hsample | ⟨v, hv, hne⟩
    · exact hcap cap (hprobe.needs ▸ hsample) hdenied
    · rw [tags_of_gates hprobe hgates _ v hv] at hdenied
      exact hne (Option.some.inj hdenied)

/-! ## A cluster of one worker -/

/-- A worker with the resources that some workloads ask for, and a plain GPU. -/
def generousWorker (specs : List WorkloadSpec) (nowUtc cost : ℚ) (tags : Dict String String) :
    WorkerInfo where
  workerId := "w"
  endpointUrl := ""
  ipAddress := ""
  port := 0
  lastHeartbeatUtc := nowUtc
  tags := tags
  resourceProfile := some
    { workerId := "w"
      endpointUrl := ""
      ipAddress := ""
      cpuCoresTotal := (specs.map (·.minCpuCores)).foldl max 0
      cpuUtilizationPercent := 0
      ramTotalBytes := (specs.map (·.minRamBytes)).foldl max 0
      ramAvailableBytes := (specs.map (·.minRamBytes)).foldl max 0
      gpuAvailable := true
      vramTotalBytes := (specs.map (·.minVramBytes)).foldl max 0
      vramAvailableBytes := (specs.map (·.minVramBytes)).foldl max 0
      costPerHour := cost
      timestampUtc := some nowUtc }

/-- An orchestrator that knows one worker. -/
def generousState (specs : List WorkloadSpec) (nowUtc cost : ℚ) (tags : Dict String String) :
    State where
  registry :=
    { workers := (∅ : Dict String WorkerInfo).set "w" (generousWorker specs nowUtc cost tags) }

variable {nowUtc cost : ℚ}

theorem profiles_generous : ∃ p, (generousState specs nowUtc cost tags).submissionProfiles = [p] ∧
    some p = (generousWorker specs nowUtc cost tags).resourceProfile :=
  ⟨_, rfl, rfl⟩

theorem workerTags_generous : ((generousState specs nowUtc cost tags).submissionContext text
    nowUtc).workerTags.get? "w" = some tags := rfl

/-- **The worker is eligible for the probe** when its tags include those of the workloads and deny
no capability that the probe needs. -/
theorem eligible_generous (hprobe : ProbeOf text specs sample probe)
    (hp : some p = (generousWorker specs nowUtc cost tags).resourceProfile)
    (htags : Placement.tagResult tags (SubmitCall.commonTags specs) = true)
    (hneeds : ∀ cap ∈ capabilityNeeds text sample, tags.get? ("cap:" ++ cap) ≠ some "false") :
    Placement.eligible text ((generousState specs nowUtc cost tags).submissionContext text nowUtc)
      probe p = true := by
  obtain rfl := Option.some.inj hp
  rw [eligible_iff]
  have hplain := hprobe.plain
  simp only [PlainGpu, List.forall_mem_cons] at hplain
  obtain ⟨hvendor, hmodel, hcompute, hdriver, hruntime, -⟩ := hplain
  constructor
  · simp only [Placement.gates, List.forall_mem_cons]
    refine ⟨?_, rfl, rfl, trivial, ?_, ?_, ?_, ?_, ?_, ?_, ?_, rfl, ?_, ?_, ?_, ?_, ?_, ?_, ?_,
      List.forall_mem_nil _⟩
    · rw [hprobe.affinity]
      rfl
    · simp [Placement.freshTelemetry, State.submissionContext, Placement.STALE_PROFILE_SECONDS]
    · simp [hprobe.cpu]
    · simp [hprobe.ram]
    · exact decide_eq_true (Nat.le_refl _)
    · exact Bool.or_true _
    · simp [hprobe.vram]
    · exact decide_eq_true (Nat.le_refl _)
    · rw [hprobe.cost]
      rfl
    · rw [hvendor]
      rfl
    · rw [hmodel]
      rfl
    · rw [hcompute]
      rfl
    · rw [hdriver]
      rfl
    · rw [hruntime]
      rfl
    · rw [workerTags_generous, hprobe.tags]
      exact htags
  · rw [workerTags_generous, hprobe.needs]
    exact hneeds

theorem isSet_eq_false {a : Option String} {b : Bool} (h : (!Placement.isSet a || b) = true)
    (hb : ∀ x, a = some x → b = false) : Placement.isSet a = false := by
  cases a with
  | none => rfl
  | some x =>
    rw [hb x rfl, Bool.or_false] at h
    simpa using h

theorem exists_not_eligible (hspec : ¬ CarriedOver text specs sample spec)
    (hneeds : ∀ cap ∈ capabilityNeeds text sample,
      (SubmitCall.commonTags specs).get? ("cap:" ++ cap) ≠ some "false") (nowUtc : ℚ) :
    ∃ (cost : ℚ) (tags : Dict String String),
      Placement.tagResult tags (SubmitCall.commonTags specs) = true ∧
      (∀ cap ∈ capabilityNeeds text sample, tags.get? ("cap:" ++ cap) ≠ some "false") ∧
      ∀ p, some p = (generousWorker specs nowUtc cost tags).resourceProfile →
        Placement.eligible text
          ((generousState specs nowUtc cost tags).submissionContext text nowUtc)
          spec p = false := by
  have hself :
      Placement.tagResult (SubmitCall.commonTags specs) (SubmitCall.commonTags specs) = true :=
    tagResult_iff.2 fun k v hv => hv
  by_contra hall
  have hall : ∀ (cost : ℚ) (tags : Dict String String) p,
      Placement.tagResult tags (SubmitCall.commonTags specs) = true →
      (∀ cap ∈ capabilityNeeds text sample, tags.get? ("cap:" ++ cap) ≠ some "false") →
      some p = (generousWorker specs nowUtc cost tags).resourceProfile →
      Placement.eligible text ((generousState specs nowUtc cost tags).submissionContext text nowUtc)
          spec p = true := by
    intro cost tags p htags hdenied hp
    by_contra hnot
    refine hall ⟨cost, tags, htags, hdenied, fun q hq => ?_⟩
    obtain rfl := Option.some.inj (hp.trans hq.symm)
    exact Bool.eq_false_iff.2 hnot
  refine hspec ⟨?_, ?_, ?_, ?_⟩
  · obtain ⟨hgates, -⟩ := eligible_iff.1 (hall 0 _ _ hself hneeds rfl)
    simp only [Placement.gates, List.forall_mem_cons] at hgates
    obtain ⟨-, -, -, -, -, -, -, -, -, -, -, -, -, gvendor, gmodel, gcompute, gdriver, gruntime,
        -⟩ :=
      hgates
    simp only [PlainGpu, List.forall_mem_cons]
    refine ⟨isSet_eq_false gvendor ?_, isSet_eq_false gmodel ?_, isSet_eq_false gcompute ?_,
      isSet_eq_false gdriver ?_, by simpa using gruntime, List.forall_mem_nil _⟩
    · rintro x hx
      rw [hx]
      rfl
    · rintro x hx
      rw [hx]
      rfl
    · rintro x -
      split
      · rename_i hnone
        cases hnone
      · rfl
    · rintro x hx
      rw [hx]
      rfl
  · intro c hc
    have hcost : ∀ cost : ℚ, (PyFloat.finite cost).le c = true := by
      intro cost
      obtain ⟨hgates, -⟩ := eligible_iff.1 (hall cost _ _ hself hneeds rfl)
      simp only [Placement.gates, List.forall_mem_cons] at hgates
      obtain ⟨-, -, -, -, -, -, -, -, -, -, -, -, gcost, -⟩ := hgates
      rw [hc] at gcost
      exact gcost
    cases c with
    | finite q =>
      -- a worker that costs more than the bound
      have hle := hcost (q + 1)
      simp only [PyFloat.le, PyFloat.lt, Bool.or_eq_true, decide_eq_true_eq, Bool.and_eq_true,
        beq_iff_eq, PyFloat.finite.injEq] at hle
      rcases hle with hlt | ⟨-, heq⟩
      · exact absurd hlt (lt_add_one q).not_gt
      · exact absurd heq (lt_add_one q).ne'
    | posInf => rfl
    | negInf => exact absurd (hcost 0) (by decide)
    | nan => exact absurd (hcost 0) (by decide)
  · obtain ⟨hgates, -⟩ := eligible_iff.1 (hall 0 _ _ hself hneeds rfl)
    simp only [Placement.gates, List.forall_mem_cons] at hgates
    obtain ⟨-, -, -, -, -, -, -, -, -, -, -, -, -, -, -, -, -, -, gtags, -⟩ := hgates
    rw [workerTags_generous] at gtags
    exact gtags
  · intro cap hcap
    by_contra hnot
    obtain ⟨hsample, hcommon⟩ := not_or.1 hnot
    -- a worker whose tags deny the capability
    have htags : Placement.tagResult ((SubmitCall.commonTags specs).set ("cap:" ++ cap) "false")
        (SubmitCall.commonTags specs) = true := by
      refine tagResult_iff.2 fun k v hv => ?_
      rw [Dict.get?_set]
      split_ifs with hk
      · by_contra hne
        exact hcommon ⟨v, hk ▸ hv, fun hv' => hne (congrArg some hv'.symm)⟩
      · exact hv
    have hdenied : ∀ k ∈ capabilityNeeds text sample,
        ((SubmitCall.commonTags specs).set ("cap:" ++ cap) "false").get? ("cap:" ++ k) ≠
          some "false" := by
      intro k hk
      rw [Dict.get?_set, if_neg]
      · exact hneeds k hk
      · intro heq
        exact hsample (String.append_right_inj _ |>.1 heq ▸ hk)
    obtain ⟨-, hcaps⟩ := eligible_iff.1 (hall 0 _ _ htags hdenied rfl)
    refine hcaps cap hcap ?_
    rw [workerTags_generous, Option.getD_some, Dict.get?_set, if_pos rfl]

/-! ## The selected workers -/

/-- **The workers that are selected are eligible for the probe.** -/
theorem probeWorkers_eligible {request : Sizing.SizingRequest} {assigned spare : List String}
    (hprobe : Sizing.buildProbeSpec sizer request call.nowUtc = some probe)
    (h : probeWorkers cfg sizer s call request probe = .ok (assigned, spare)) :
    ∀ wid ∈ assigned, ∃ p ∈ s.submissionProfiles, p.workerId = wid ∧
      Placement.eligible cfg.text (s.submissionContext cfg.text call.nowUtc) probe p = true := by
  intro wid hwid
  unfold probeWorkers at h
  dsimp only at h
  split at h
  · split_ifs at h
    obtain ⟨rfl, -⟩ := Prod.mk.inj (Except.ok.inj h)
    have hmem := List.mem_of_mem_take hwid
    rw [List.mem_insertionSort] at hmem
    obtain ⟨p, hp, hid⟩ := List.mem_map.1 hmem
    exact ⟨p, (List.mem_filter.1 hp).1, hid, (List.mem_filter.1 hp).2⟩
  · split at h
    · cases h
    · rename_i d hd
      split_ifs at h
      · obtain ⟨rfl, -⟩ := Prod.mk.inj (Except.ok.inj h)
        have hnow : (s.submissionContext cfg.text call.nowUtc).nowUtc = call.nowUtc := rfl
        rw [← hnow] at hprobe
        exact Sizing.sizeCluster_eligible hprobe hd wid hwid
      · obtain ⟨rfl, -⟩ := Prod.mk.inj (Except.ok.inj h)
        exact absurd hwid List.not_mem_nil

theorem selectWorkers_ok {assigned spare : Option (List String)}
    (hids : call.selectedWorkerIds.getD [] = []) (hshape : call.shape ≠ .distributedNative)
    (hspecs : call.specs ≠ []) (h : selectWorkers cfg sizer s call j = .ok (assigned, spare)) :
    ∃ sample probe a b, call.specs.head? = some sample ∧ (call.sizingRequest j sample).isValid ∧
      Sizing.buildProbeSpec sizer (call.sizingRequest j sample) call.nowUtc = some probe ∧
      probeWorkers cfg sizer s call (call.sizingRequest j sample) probe = .ok (a, b) ∧
      assigned = some a := by
  unfold selectWorkers at h
  cases hcall : call.specs with
  | nil => exact absurd hcall hspecs
  | cons sample rest =>
    rw [hids, hcall] at h
    dsimp only at h
    rw [if_neg hshape] at h
    split_ifs at h with hvalid
    cases hprobe : Sizing.buildProbeSpec sizer (call.sizingRequest j sample) call.nowUtc with
    | none =>
      rw [hprobe] at h
      cases h
    | some probe =>
      rw [hprobe] at h
      dsimp only at h
      cases hworkers : probeWorkers cfg sizer s call (call.sizingRequest j sample) probe with
      | error e =>
        rw [hworkers] at h
        cases h
      | ok ab =>
        rw [hworkers] at h
        obtain ⟨rfl, -⟩ := Prod.mk.inj (Except.ok.inj h)
        exact ⟨sample, probe, ab.1, ab.2, rfl, hvalid, hprobe, hworkers, rfl⟩

/-- The checks that do not depend on the cluster accept the job when it asks for one worker. -/
structure Accepted (sizer : Sizing.ClusterSizer) (call : SubmitCall) (j : String)
    (sample : WorkloadSpec) : Prop where
  jobId : call.jobId = .ok j
  head : call.specs.head? = some sample
  dependencies : call.checkDependencies = .ok ()
  workerCount : call.checkWorkerCount = .ok ()
  request : ({ call with workerCount := some 1 }.sizingRequest j sample).isValid
  probe : (Sizing.buildProbeSpec sizer (call.sizingRequest j sample) call.nowUtc).isSome
  record : (call.jobRecord j none none).Valid

/-- Each worker that a new job is confined to is eligible for every workload of the job, under the
profiles and tags of the submission. -/
def ConfinementSound (cfg : Config) (sizer : Sizing.ClusterSizer) (s : State) (call : SubmitCall) :
    Prop :=
  ∀ j, call.jobId = .ok j → s.jobs.get? j = none →
    ∀ job, (submitJob cfg sizer s call).1.jobs.get? j = some job →
      ∀ wid ∈ job.selectedWorkerIds.getD [], ∃ p ∈ s.submissionProfiles, p.workerId = wid ∧
        ∀ spec ∈ call.stamped j,
          Placement.eligible cfg.text (s.submissionContext cfg.text call.nowUtc) spec p = true

/-- Unless the tags of an accepted job deny a capability that its probe needs, so that no worker is
eligible, the probe carries all its workloads. -/
def AllCarriedOver (text : TextFunctions) (sizer : Sizing.ClusterSizer) (call : SubmitCall) :
    Prop :=
  ∀ j sample, Accepted sizer call j sample →
    (∃ cap ∈ capabilityNeeds text sample,
      (SubmitCall.commonTags call.specs).get? ("cap:" ++ cap) = some "false") ∨
    ∀ spec ∈ call.specs, CarriedOver text call.specs sample spec

theorem isValid_one {request : Sizing.SizingRequest} (h : request.isValid = true) :
    { request with maxWorkersLimit := some 1 }.isValid = true := by
  simp only [Sizing.SizingRequest.isValid, Bool.and_eq_true, and_assoc] at h ⊢
  obtain ⟨h₁, h₂, h₃, h₄, h₅, -, h₇⟩ := h
  exact ⟨h₁, h₂, h₃, h₄, h₅, rfl, h₇⟩

/-- The number of workers that is asked for is a limit of the request, and is read nowhere else. -/
theorem sizingRequest_workerCount (call : SubmitCall) (count : Option ℤ) (j : String)
    (sample : WorkloadSpec) : { call with workerCount := count }.sizingRequest j sample =
      { call.sizingRequest j sample with maxWorkersLimit := count } := rfl

theorem accepted_of_planJob {job : JobRecord} (hid : call.jobId = .ok j)
    (hids : call.selectedWorkerIds.getD [] = []) (hshape : call.shape ≠ .distributedNative)
    (hplan : planJob cfg sizer s call j = .ok job) : ∃ sample probe,
      Accepted sizer call j sample ∧
      Sizing.buildProbeSpec sizer (call.sizingRequest j sample) call.nowUtc = some probe ∧
      ∀ wid ∈ job.selectedWorkerIds.getD [], ∃ p ∈ s.submissionProfiles, p.workerId = wid ∧
        Placement.eligible cfg.text (s.submissionContext cfg.text call.nowUtc) probe p = true := by
  obtain ⟨hdeps, hcount, assigned, spare, hselect, hcreate⟩ := planJob_ok hplan
  have hspecs : call.specs ≠ [] := by
    intro hnil
    rw [SubmitCall.jobId, if_pos hnil] at hid
    cases hid
  obtain ⟨sample, probe, a, b, hhead, hvalid, hprobe, hworkers, rfl⟩ :=
    selectWorkers_ok hids hshape hspecs hselect
  obtain ⟨hrecord, hjob⟩ := JobRecord.create_eq_ok_iff.1 hcreate
  have hselected : job.selectedWorkerIds = JobRecord.sortedIds (some a) :=
    congrArg JobRecord.selectedWorkerIds hjob
  refine ⟨sample, probe, ?_, hprobe, fun wid hwid => ?_⟩
  · exact {
      jobId := hid
      head := hhead
      dependencies := hdeps
      workerCount := hcount
      request := by
        rw [sizingRequest_workerCount]
        exact isValid_one hvalid
      probe := Option.isSome_of_eq_some hprobe
      record := hrecord }
  · rw [hselected] at hwid
    exact probeWorkers_eligible hprobe hworkers wid (JobRecord.mem_sortedIds.1 hwid)

theorem buildProbeSpec_workerCount (call : SubmitCall) (count : Option ℤ) (j : String)
    (sample : WorkloadSpec) (now : ℚ) :
    Sizing.buildProbeSpec sizer ({ call with workerCount := count }.sizingRequest j sample) now =
      Sizing.buildProbeSpec sizer (call.sizingRequest j sample) now := rfl

/-- Whether a job is accepted does not depend on the number of workers that it asks for. -/
theorem accepted_workerCount {count : Option ℤ} :
    Accepted sizer { call with workerCount := count } j sample ↔ Accepted sizer call j sample := by
  constructor
  · intro h
    exact {
      jobId := h.jobId
      head := h.head
      dependencies := h.dependencies
      workerCount := h.workerCount
      request := h.request
      probe := by
        rw [← buildProbeSpec_workerCount call count]
        exact h.probe
      record := h.record }
  · intro h
    exact {
      jobId := h.jobId
      head := h.head
      dependencies := h.dependencies
      workerCount := h.workerCount
      request := h.request
      probe := by
        rw [buildProbeSpec_workerCount]
        exact h.probe
      record := h.record }

theorem planJob_of_ok {job : JobRecord} {assigned spare : Option (List String)}
    (hdeps : call.checkDependencies = .ok ()) (hcount : call.checkWorkerCount = .ok ())
    (hselect : selectWorkers cfg sizer s call j = .ok (assigned, spare))
    (hcreate : (call.jobRecord j assigned spare).create = .ok job) :
    planJob cfg sizer s call j = .ok job := by
  unfold planJob
  rw [hdeps, hcount, hselect]
  show (call.jobRecord j assigned spare).create.mapError SubmitError.jobRecord = .ok job
  rw [hcreate]
  rfl

theorem selectWorkers_eq (hids : call.selectedWorkerIds.getD [] = [])
    (hshape : call.shape ≠ .distributedNative) (hhead : call.specs.head? = some sample)
    (hvalid : (call.sizingRequest j sample).isValid)
    (hprobe : Sizing.buildProbeSpec sizer (call.sizingRequest j sample) call.nowUtc =
      some probe) : selectWorkers cfg sizer s call j =
        (probeWorkers cfg sizer s call (call.sizingRequest j sample) probe).map
          fun (assigned, spare) => (some assigned, some spare) := by
  unfold selectWorkers
  cases hspecs : call.specs with
  | nil =>
    rw [hspecs] at hhead
    cases hhead
  | cons b rest =>
    rw [hspecs] at hhead
    obtain rfl := Option.some.inj hhead
    rw [hids]
    dsimp only
    rw [if_neg hshape, if_pos hvalid, hprobe]

theorem planJob_single (hacc : Accepted sizer call j sample) (hcount : call.workerCount = some 1)
    (hids : call.selectedWorkerIds.getD [] = []) (hshape : call.shape ≠ .distributedNative)
    (hprobe : Sizing.buildProbeSpec sizer (call.sizingRequest j sample) call.nowUtc = some probe)
    (hp : s.submissionProfiles = [p]) (heligible : Placement.eligible cfg.text
      (s.submissionContext cfg.text call.nowUtc) probe p = true) :
    ∃ job, planJob cfg sizer s call j = .ok job ∧ job.selectedWorkerIds = some [p.workerId] := by
  have hworkers : probeWorkers cfg sizer s call (call.sizingRequest j sample) probe =
      .ok ([p.workerId], []) := by
    unfold probeWorkers
    rw [hcount]
    dsimp only
    rw [hp, List.filter_cons_of_pos heligible]
    rfl
  have hvalid : (call.sizingRequest j sample).isValid = true := by
    have hvalid := hacc.request
    rw [sizingRequest_workerCount, ← hcount] at hvalid
    exact hvalid
  have hselect : selectWorkers cfg sizer s call j = .ok (some [p.workerId], some []) := by
    rw [selectWorkers_eq hids hshape hacc.head hvalid hprobe, hworkers]
    rfl
  have hcreate := JobRecord.create_eq_ok_iff.2 ⟨(show (call.jobRecord j (some [p.workerId])
    (some [])).Valid from hacc.record), rfl⟩
  exact ⟨_, planJob_of_ok hacc.dependencies hacc.workerCount hselect hcreate, rfl⟩

theorem eligible_stamped (text : TextFunctions) (ctx : PlacementContext) (spec : WorkloadSpec)
    (j : Option String) (p : WorkerResourceProfile) :
    Placement.eligible text ctx { spec with jobId := j } p =
      Placement.eligible text ctx spec p := rfl

theorem forall_stamped_eligible :
    (∀ spec ∈ call.stamped j, Placement.eligible text ctx spec p = true) ↔
    ∀ spec ∈ call.specs, Placement.eligible text ctx spec p = true := by
  unfold SubmitCall.stamped
  rw [List.forall_mem_map]
  refine forall₂_congr fun spec _ => ?_
  split_ifs
  · exact Iff.rfl
  · rw [eligible_stamped]

theorem not_denied_of_eligible (hprobe : ProbeOf text specs sample probe)
    (h : Placement.eligible text ctx probe p = true) : ∀ cap ∈ capabilityNeeds text sample,
      (SubmitCall.commonTags specs).get? ("cap:" ++ cap) ≠ some "false" := by
  intro cap hcap hdenied
  obtain ⟨hgates, hcaps⟩ := eligible_iff.1 h
  exact hcaps cap (hprobe.needs ▸ hcap) (tags_of_gates hprobe hgates _ _ hdenied)

theorem jobs_of_submitJob {job : JobRecord} (hid : call.jobId = .ok j) (hjob : s.jobs.get? j = none)
    (hplan : planJob cfg sizer s call j = .ok job) :
    (submitJob cfg sizer s call).1.jobs.get? j = some job := by
  by_cases hsaved : call.Saved cfg
  · rw [submitJob_new hid hjob hplan hsaved, jobs_submitAll, Dict.get?_set, if_pos rfl]
  · rw [submitJob_unsaved hid hjob hplan hsaved, Dict.get?_set, if_pos rfl]

theorem planJob_of_submitJob {job : JobRecord} (hid : call.jobId = .ok j)
    (hjob : s.jobs.get? j = none) (h : (submitJob cfg sizer s call).1.jobs.get? j = some job) :
    planJob cfg sizer s call j = .ok job := by
  cases hplan : planJob cfg sizer s call j with
  | error e =>
    rw [submitJob_rejected hid hjob hplan, hjob] at h
    cases h
  | ok job' =>
    rw [jobs_of_submitJob hid hjob hplan] at h
    exact congrArg _ (Option.some.inj h)

/-- **The confinement of a job is sound in all clusters exactly when** its probe carries all its
workloads, or no cluster lets it pass. -/
theorem probe_sound_iff (cfg : Config) (sizer : Sizing.ClusterSizer) (call : SubmitCall)
    (hids : call.selectedWorkerIds.getD [] = []) (hshape : call.shape ≠ .distributedNative) :
    (∀ s count, ConfinementSound cfg sizer s { call with workerCount := count }) ↔
      AllCarriedOver cfg.text sizer call := by
  constructor
  · intro hsound j sample hacc
    refine or_iff_not_imp_left.2 fun hdenied spec hspec => ?_
    by_contra hnot
    have hneeds : ∀ cap ∈ capabilityNeeds cfg.text sample,
        (SubmitCall.commonTags call.specs).get? ("cap:" ++ cap) ≠ some "false" :=
      fun cap hcap heq => hdenied ⟨cap, hcap, heq⟩
    obtain ⟨cost, tags, htags, hallowed, hnoteligible⟩ :=
      exists_not_eligible hnot hneeds call.nowUtc
    obtain ⟨probe, hprobe⟩ := Option.isSome_iff_exists.1 hacc.probe
    obtain ⟨p, hp, hresource⟩ := @profiles_generous call.specs tags call.nowUtc cost
    have heligible := eligible_generous (probeOf_buildProbeSpec hprobe) hresource htags hallowed
    have hacc₁ : Accepted sizer { call with workerCount := some 1 } j sample :=
      accepted_workerCount.2 hacc
    obtain ⟨job, hplan, hselected⟩ := planJob_single hacc₁ rfl hids hshape hprobe hp heligible
    have hget := jobs_of_submitJob hacc₁.jobId rfl hplan
    obtain ⟨q, hq, -, hall⟩ := hsound (generousState call.specs call.nowUtc cost tags) (some 1) j
      hacc.jobId rfl job hget p.workerId (by rw [hselected]; exact List.mem_singleton_self _)
    rw [hp] at hq
    obtain rfl := List.mem_singleton.1 hq
    have hspec := forall_stamped_eligible.1 hall spec hspec
    rw [hnoteligible q hresource] at hspec
    cases hspec
  · intro hcarried s count j hid hjob job hget wid hwid
    obtain ⟨sample, probe, hacc, hprobe, hselected⟩ :=
      accepted_of_planJob hid hids hshape (planJob_of_submitJob hid hjob hget)
    obtain ⟨p, hp, hpid, heligible⟩ := hselected wid hwid
    have hprobe : ProbeOf cfg.text call.specs sample probe := probeOf_buildProbeSpec hprobe
    refine ⟨p, hp, hpid, forall_stamped_eligible.2 fun spec hspec => ?_⟩
    rcases hcarried j sample (accepted_workerCount.1 hacc) with ⟨cap, hcap, hdenied⟩ | hcarried
    · exact absurd hdenied (not_denied_of_eligible hprobe heligible cap hcap)
    · exact (hcarried spec hspec).eligible hspec hprobe rfl heligible

/-- The confinement of a job of one plain workload is sound in all clusters. -/
theorem probe_sound_plain :
    AllCarriedOver (sampleConfig 1).text sampleSizer (sampleCall "j" [sampleSpec "a"]) ∧
      ∀ s count, ConfinementSound (sampleConfig 1) sampleSizer s
        { sampleCall "j" [sampleSpec "a"] with workerCount := count } := by
  have hall :
      AllCarriedOver (sampleConfig 1).text sampleSizer (sampleCall "j" [sampleSpec "a"]) := by
    refine fun j sample _ => .inr fun spec hspec => ?_
    obtain rfl := List.mem_singleton.1 hspec
    have hneeds : capabilityNeeds (sampleConfig 1).text (sampleSpec "a") = [] := by decide +kernel
    refine ⟨by decide +kernel, fun c hc => (nomatch hc), by decide +kernel, fun cap hcap => ?_⟩
    rw [hneeds] at hcap
    cases hcap
  exact ⟨hall, (probe_sound_iff (sampleConfig 1) sampleSizer (sampleCall "j" [sampleSpec "a"]) rfl
    (by decide)).2 hall⟩

/-- A workload that requires a vendor of the GPU is confined to a worker without one. -/
theorem confined_without_gpu_vendor :
    ¬ ∀ (s : State) (call : SubmitCall), call.selectedWorkerIds.getD [] = [] →
      call.shape ≠ .distributedNative → ConfinementSound (sampleConfig 1) sampleSizer s call := by
  intro hclaim
  obtain ⟨spec, hspec⟩ :
      ∃ spec, spec = { sampleSpec "a" with requiredGpuVendor := some "nvidia" } :=
    ⟨_, rfl⟩
  obtain ⟨s, hs⟩ : ∃ s, s = generousState [spec] 0 0 ∅ := ⟨_, rfl⟩
  obtain ⟨call, hc⟩ :
    ∃ call, call = { sampleCall "j" [spec] with workerCount := some 1 } := ⟨_, rfl⟩
  have hrun : ((submitJob (sampleConfig 1) sampleSizer s call).1.jobs.get? "j").any (fun job =>
        "w" ∈ job.selectedWorkerIds.getD []) ∧
      s.submissionProfiles.all fun p => !Placement.eligible (sampleConfig 1).text
        (s.submissionContext (sampleConfig 1).text call.nowUtc) spec p := by
    rw [hc, hs, hspec]
    decide +kernel
  obtain ⟨job, hjob, hmem⟩ := (Option.any_eq_true _ _).1 hrun.1
  have hid : call.jobId = .ok "j" := by
    rw [hc, hspec]
    rfl
  have hempty : s.jobs.get? "j" = none := by
    rw [hs]
    rfl
  have hids : call.selectedWorkerIds.getD [] = [] := by
    rw [hc]
    rfl
  have hshape : call.shape ≠ .distributedNative := by
    rw [hc, hspec]
    decide +kernel
  obtain ⟨p, hp, -, heligible⟩ := hclaim s call hids hshape "j" hid hempty job hjob "w"
    (of_decide_eq_true hmem)
  have hnot := List.all_eq_true.1 hrun.2 p hp
  have hmem : spec ∈ call.specs := by
    rw [hc]
    exact List.mem_singleton_self _
  rw [forall_stamped_eligible.1 heligible spec hmem] at hnot
  cases hnot

end Aidars.Orchestrator
