import Aidars.Attempt.Basic
import Aidars.Models.Worker

/-!
# Placement

`gates` are the hard gates of the placement engine at one worker; a worker that fails none of them
is eligible. Among the eligible workers the engine ranks by scores and learned risk; here
the ranking is an argument (`Ranking`), an order of preference with the numbers that the decision
reports, so that every ranking is covered. `evaluateGroup` repeats the evaluation for the members of
a group. Text functions of the standard library that depend on Unicode tables are fields of
`TextFunctions`.
-/

namespace Aidars

/-- Functions on texts: lowercasing, case folding, and reading an integer. -/
structure TextFunctions where
  lower : String → String
  casefold : String → String
  parseInt : String → Option ℤ

/-- What an evaluation reads besides the workload and the profiles. -/
structure PlacementContext where
  workerTags : Dict String (Dict String String)
  groupWorkers : PySet String
  nowUtc : ℚ

/-- The outcome of ranking: an order of preference, and the numbers reported for each worker. -/
structure Ranking where
  order : List String
  details : String → PlacementDecision

namespace Placement

variable (text : TextFunctions)

/-- The oldest telemetry that placement accepts, in seconds. -/
def STALE_PROFILE_SECONDS : ℚ := 10

/-- A requirement that is present and not the empty text. -/
def isSet (s : Option String) : Bool := s.any (· ≠ "")

/-- A compute capability as a pair of integers. -/
def capabilityTuple (value : Option String) : Option (ℤ × ℤ) :=
  match value with
  | none => none
  | some v =>
    let major := v.toList.takeWhile (· ≠ '.')
    match v.toList.dropWhile (· ≠ '.') with
    | [] => none
    | _ :: minor => do
      let a ← text.parseInt (String.ofList major)
      let b ← text.parseInt (String.ofList minor)
      return (a, b)

/-- The order of pairs. -/
def capabilityLe (a b : ℤ × ℤ) : Bool := a.1 < b.1 || (a.1 = b.1 && a.2 ≤ b.2)

/-- All required tags have their required value. -/
def tagResult (actual required : Dict String String) : Bool :=
  required.entries.all fun e => actual.get? e.1 = some e.2

/-- A worker's tags, with one for each declared capability. -/
def effectiveWorkerTags (w : WorkerInfo) : Dict String String :=
  w.capabilities.foldl (fun tags cap =>
    if (tags.get? ("cap:" ++ text.lower cap)).isSome then tags
    else tags.set ("cap:" ++ text.lower cap) "true") w.tags

/-- Some GPU requirement is made. -/
def needsGpu (spec : WorkloadSpec) : Bool :=
  spec.requiresGpu || 0 < spec.minVramBytes || isSet spec.requiredGpuVendor ||
    isSet spec.requiredGpuModel || isSet spec.minComputeCapability ||
    isSet spec.requiredDriverVersion || isSet spec.requiredRuntimeCompatibility

/-- The affinity of a candidate to the workers already used by the workload's group. -/
def affinityMatch (ctx : PlacementContext) (spec : WorkloadSpec) (p : WorkerResourceProfile) :
    Bool :=
  let previous := ctx.groupWorkers
  let tagOf := fun wid => (ctx.workerTags.get? wid).bind (·.get? (spec.affinityTagKey.getD ""))
  let priorTags := PySet.ofList (previous.toList.filterMap tagOf)
  let allTagged := priorTags.toList.length = previous.toList.length
  if previous = ∅ then true
  else match spec.affinityMode with
    | .none => true
    | .sameWorker => p.workerId ∈ previous
    | .differentWorker => p.workerId ∉ previous
    | .sameTag =>
      (tagOf p.workerId).any fun t => allTagged && priorTags.toList.length = 1 && t ∈ priorTags
    | .differentTag => (tagOf p.workerId).any fun t => allTagged && t ∉ priorTags

/-- The last component of a path. -/
def basename (path : String) : String :=
  String.ofList (path.toList.reverse.takeWhile (· ≠ '/')).reverse

/-- A JSON value counts as true. -/
def truthy : Option Json → Bool
  | none | some .null => false
  | some (.bool b) => b
  | some (.int n) => n ≠ 0
  | some (.float x) => x ≠ 0
  | some (.str s) => s ≠ ""
  | some (.arr l) => l ≠ []
  | some (.obj l) => l ≠ []

/-- The capabilities that a task type or its executable needs and that the worker declares to be
missing. -/
def missingCapabilities (spec : WorkloadSpec) (tags : Dict String String) : List String :=
  if tags.keys.any (fun k => k.toList.take 4 = "cap:".toList) then
    let task := text.lower spec.taskType
    let exec := match spec.executionSpec with
      | some e => if e.executable = "" then "" else text.lower (basename e.executable)
      | none => ""
    let denied := fun cap => tags.get? ("cap:" ++ cap) = some "false"
    let liveOllama := truthy (spec.parameters.get? "live_ollama") ||
      spec.executionSpec.any fun e => e.env.get? "AIDAR_LLM_LIVE" = some "1"
    (if (["blender", "blender_render"].contains task || ["blender", "blender.exe"].contains exec) &&
        denied "blender" then ["MISSING_CAPABILITY:blender"] else []) ++
    (if (["ffmpeg", "video_rendering", "video_transcode"].contains task ||
        ["ffmpeg", "ffmpeg.exe"].contains exec) && denied "ffmpeg"
      then ["MISSING_CAPABILITY:ffmpeg"] else []) ++
    (if ["ml_training", "pytorch"].contains task && denied "pytorch"
      then ["MISSING_CAPABILITY:pytorch"] else []) ++
    (if ["llm", "llm_inference"].contains task && liveOllama && denied "ollama"
      then ["MISSING_CAPABILITY:ollama"] else [])
  else []

/-- The age of a profile is known, not negative and at most the limit. -/
def freshTelemetry (nowUtc : ℚ) (p : WorkerResourceProfile) : Bool :=
  p.timestampUtc.any fun t => 0 ≤ nowUtc - t && nowUtc - t ≤ STALE_PROFILE_SECONDS

/-- The hard gates, in the order of the checks, each with the reason that it gives. -/
def gates (ctx : PlacementContext) (spec : WorkloadSpec) (p : WorkerResourceProfile) :
    List (Bool × String) :=
  let tags := (ctx.workerTags.get? p.workerId).getD ∅
  let availCpu : ℚ := p.cpuCoresTotal * (1 - p.cpuUtilizationPercent / 100)
  [(spec.affinityMode = .none || affinityMatch ctx spec p || !spec.affinityHard,
      "AFFINITY_CONSTRAINT_NOT_MET"),
    (p.status = .active, "WORKER_NOT_ACTIVE"),
    (p.status = .active || p.status = .degraded, "WORKER_UNHEALTHY"),
    (p.canExecuteWorkloads, "WORKER_CANNOT_EXECUTE"),
    (freshTelemetry ctx.nowUtc p,
      if p.timestampUtc.isNone then "MISSING_TELEMETRY" else "STALE_TELEMETRY"),
    ((spec.minCpuCores : ℚ) ≤ availCpu, "INSUFFICIENT_CPU"),
    (p.ramTotalBytes < p.ramAvailableBytes || spec.minRamBytes ≤ p.ramAvailableBytes,
      "INSUFFICIENT_RAM"),
    (p.ramAvailableBytes ≤ p.ramTotalBytes, "INCONSISTENT_RAM_TELEMETRY_TELEMETRY"),
    (!needsGpu spec || p.gpuAvailable, "REQUIRED_GPU_UNAVAILABLE"),
    (p.vramTotalBytes < p.vramAvailableBytes || spec.minVramBytes ≤ p.vramAvailableBytes,
      "INSUFFICIENT_VRAM"),
    (p.vramAvailableBytes ≤ p.vramTotalBytes, "INCONSISTENT_VRAM_TELEMETRY_TELEMETRY"),
    (p.activeWorkloadCount < p.maxConcurrentWorkloads, "CONCURRENCY_LIMIT_REACHED"),
    (spec.maxCostPerHour.all fun c => (PyFloat.finite p.costPerHour).le c, "COST_EXCEEDS_BUDGET"),
    (!isSet spec.requiredGpuVendor ||
      p.gpuVendor.map text.casefold = spec.requiredGpuVendor.map text.casefold,
      "GPU_VENDOR_MISMATCH"),
    (!isSet spec.requiredGpuModel ||
      (if isSet p.gpuModel then p.gpuModel else p.gpuDeviceName).map text.casefold =
        spec.requiredGpuModel.map text.casefold, "GPU_MODEL_MISMATCH"),
    (!isSet spec.minComputeCapability ||
      match capabilityTuple text spec.minComputeCapability,
          capabilityTuple text p.gpuComputeCapability with
      | some required, some actual => capabilityLe required actual
      | _, _ => false, "GPU_COMPUTE_CAPABILITY_UNKNOWN_OR_TOO_LOW"),
    (!isSet spec.requiredDriverVersion || p.gpuDriverVersion = spec.requiredDriverVersion,
      "GPU_DRIVER_VERSION_MISMATCH_OR_UNKNOWN"),
    (!isSet spec.requiredRuntimeCompatibility, "GPU_RUNTIME_COMPATIBILITY_UNKNOWN"),
    (tagResult tags spec.requiredWorkerTags, "REQUIRED_WORKER_TAG_MISMATCH")]

/-- The reasons of the gates that a worker fails. -/
def rejectionReasons (ctx : PlacementContext) (spec : WorkloadSpec) (p : WorkerResourceProfile) :
    List String :=
  ((gates text ctx spec p).filter (!·.1)).map Prod.snd ++
    missingCapabilities text spec ((ctx.workerTags.get? p.workerId).getD ∅)

/-- A worker passes every hard gate. -/
def eligible (ctx : PlacementContext) (spec : WorkloadSpec) (p : WorkerResourceProfile) : Bool :=
  rejectionReasons text ctx spec p = []

/-- The first candidate in the order of preference, or the first of the list. -/
def selectRanked (order : List String) (candidates : List WorkerResourceProfile) :
    Option WorkerResourceProfile :=
  (order.findSome? fun wid => candidates.find? (·.workerId = wid)).or candidates.head?

/-- Select an eligible worker, if there is one. -/
def evaluate (ctx : PlacementContext) (ranking : Ranking) (spec : WorkloadSpec)
    (profiles : List WorkerResourceProfile) : Option PlacementDecision :=
  (selectRanked ranking.order (profiles.filter (eligible text ctx spec))).map fun p =>
    { ranking.details p.workerId with
      workloadId := spec.workloadId
      selectedWorkerId := p.workerId
      missingAssetsOnWorker := spec.inputAssetHashes.filter (· ∉ p.localCachedHashes) }

/-- Select the members of a group one after the other, or none of them. -/
def evaluateGroup (ctx : PlacementContext) (ranking : Ranking) (spec : WorkloadSpec) :
    ℕ → List WorkerResourceProfile → Option (List PlacementDecision)
  | 0, _ => some []
  | n + 1, remaining =>
    match evaluate text ctx ranking spec remaining with
    | none => none
    | some d =>
      (evaluateGroup ctx ranking spec n
        (remaining.filter (·.workerId ≠ d.selectedWorkerId))).map (d :: ·)

/-- Merge a worker's telemetry with the coordinator's own facts about it. -/
def workerProfile (attempts : AttemptRegistry) (info : WorkerInfo) :
    Option WorkerResourceProfile :=
  info.resourceProfile.map fun telemetry => { telemetry with
    workerId := info.workerId
    endpointUrl := info.endpointUrl
    ipAddress := info.ipAddress
    activeWorkloadCount := (attempts.listRunningAttemptsForWorker info.workerId).length
    status := info.status
    localCachedHashes := info.inventoryHashes
    canExecuteWorkloads := info.canExecuteWorkloads }

/-- The profiles of the workers that have telemetry. -/
def buildWorkerProfiles (attempts : AttemptRegistry) (workers : List WorkerInfo) :
    List WorkerResourceProfile :=
  workers.filterMap (workerProfile attempts)

/-! ## What a decision guarantees -/

variable {text} {ctx : PlacementContext} {ranking : Ranking} {spec : WorkloadSpec}
  {profiles : List WorkerResourceProfile}

theorem selectRanked_mem {order : List String} {candidates : List WorkerResourceProfile}
    {p : WorkerResourceProfile} (h : selectRanked order candidates = some p) : p ∈ candidates := by
  unfold selectRanked at h
  rcases Option.or_eq_some_iff.1 h with h | ⟨-, h⟩
  · obtain ⟨wid, -, hf⟩ := List.exists_of_findSome?_eq_some h
    exact List.mem_of_find?_eq_some hf
  · exact List.mem_of_mem_head? h

/-- An eligible worker passes each gate. -/
theorem gate_of_eligible {p : WorkerResourceProfile} {g : Bool × String}
    (h : eligible text ctx spec p = true) (hg : g ∈ gates text ctx spec p) : g.1 = true := by
  have hnil := (List.append_eq_nil_iff.1 (of_decide_eq_true h)).1
  have hfilter := List.filter_eq_nil_iff.1 (List.map_eq_nil_iff.1 hnil) g hg
  simpa using hfilter

theorem evaluate_eligible {d : PlacementDecision}
    (h : evaluate text ctx ranking spec profiles = some d) :
    ∃ p ∈ profiles, p.workerId = d.selectedWorkerId ∧ eligible text ctx spec p = true := by
  obtain ⟨p, hp, rfl⟩ := Option.map_eq_some_iff.1 h
  obtain ⟨hmem, he⟩ := List.mem_filter.1 (selectRanked_mem hp)
  exact ⟨p, hmem, rfl, he⟩

theorem active_lt_of_eligible {p : WorkerResourceProfile} (h : eligible text ctx spec p = true) :
    p.activeWorkloadCount < p.maxConcurrentWorkloads := by
  have hmem : (decide (p.activeWorkloadCount < p.maxConcurrentWorkloads),
      "CONCURRENCY_LIMIT_REACHED") ∈ gates text ctx spec p := by
    simp only [gates, List.mem_cons, true_or, or_true]
  exact of_decide_eq_true (gate_of_eligible h hmem)

theorem evaluateGroup_eligible {n : ℕ} {ds : List PlacementDecision}
    (h : evaluateGroup text ctx ranking spec n profiles = some ds) :
    ∀ d ∈ ds, ∃ p ∈ profiles, p.workerId = d.selectedWorkerId ∧ eligible text ctx spec p =
      true := by
  induction n generalizing profiles ds with
  | zero =>
    obtain rfl := Option.some.inj h
    simp
  | succ n ih =>
    unfold evaluateGroup at h
    split at h
    · cases h
    · rename_i d₀ hd
      obtain ⟨rest, hrest, rfl⟩ := Option.map_eq_some_iff.1 h
      intro d hmem
      rcases List.mem_cons.1 hmem with rfl | hmem
      · exact evaluate_eligible hd
      · obtain ⟨p, hp, he⟩ := ih hrest d hmem
        exact ⟨p, (List.mem_filter.1 hp).1, he⟩

theorem evaluateGroup_distinct {n : ℕ} {ds : List PlacementDecision}
    (h : evaluateGroup text ctx ranking spec n profiles = some ds) :
    ds.length = n ∧ (ds.map (·.selectedWorkerId)).Nodup := by
  induction n generalizing profiles ds with
  | zero =>
    obtain rfl := Option.some.inj h
    exact ⟨rfl, List.nodup_nil⟩
  | succ n ih =>
    unfold evaluateGroup at h
    split at h
    · cases h
    · rename_i d₀ hd
      obtain ⟨rest, hrest, rfl⟩ := Option.map_eq_some_iff.1 h
      obtain ⟨hlen, hnodup⟩ := ih hrest
      refine ⟨by rw [List.length_cons, hlen], List.nodup_cons.2 ⟨fun hmem => ?_, hnodup⟩⟩
      -- the later members are taken from the profiles of the other workers
      obtain ⟨d, hdmem, hdid⟩ := List.mem_map.1 hmem
      obtain ⟨p, hp, hpid, -⟩ := evaluateGroup_eligible hrest d hdmem
      have hne := (List.mem_filter.1 hp).2
      rw [hpid, hdid] at hne
      simp at hne

end Placement

end Aidars
