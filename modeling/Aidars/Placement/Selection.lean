import Aidars.Placement.Scoring

/-!
# What the placement engine selects

`PassesGates` states the hard gates of a placement one by one. A worker is eligible exactly when it
passes them and the workload asks for no runtime compatibility, which no worker is known to have
(`isEligible_iff`). Among the eligible workers the engine selects one with the best final score, and
for a group the best ones (`selects_best`).

`evaluate_eq` says that the engine is the placement of `Placement.evaluate` at a ranking.
-/

namespace Aidars.PlacementEngine

variable {text : TextFunctions} {engine : PlacementEngine} {ctx : PlacementContext}
  {spec : WorkloadSpec} {sizes : Dict String ℤ} {profiles : List TelemetryProfile}
  {p q : TelemetryProfile}

/-! ## The gates -/

/-- The hard gates at a worker. -/
structure PassesGates (text : TextFunctions) (ctx : PlacementContext) (spec : WorkloadSpec)
    (p : TelemetryProfile) : Prop where
  active : p.profile.status = .active
  canExecute : p.profile.canExecuteWorkloads = true
  cpu : ∃ used, p.cpuUtilizationPercent = .finite used ∧
    (spec.minCpuCores : ℚ) ≤ p.profile.cpuCoresTotal * (1 - used / 100)
  telemetry : ∃ t, p.timestampUtc = some (.finite t) ∧ 0 ≤ ctx.nowUtc - t ∧ ctx.nowUtc - t ≤ 10
  ram : spec.minRamBytes ≤ p.profile.ramAvailableBytes ∧
    p.profile.ramAvailableBytes ≤ p.profile.ramTotalBytes
  gpu : Placement.needsGpu spec = true → p.profile.gpuAvailable = true
  vram : spec.minVramBytes ≤ p.profile.vramAvailableBytes ∧
    p.profile.vramAvailableBytes ≤ p.profile.vramTotalBytes
  concurrency : p.profile.activeWorkloadCount < p.profile.maxConcurrentWorkloads
  cost : ∀ c, spec.maxCostPerHour = some c → (PyFloat.finite p.profile.costPerHour).le c
  gpuVendor : ∀ v, spec.requiredGpuVendor = some v → v ≠ "" →
    ∃ actual, p.profile.gpuVendor = some actual ∧ text.casefold actual = text.casefold v
  gpuModel : ∀ v, spec.requiredGpuModel = some v → v ≠ "" →
    ∃ actual, (p.profile.gpuModel.filter (· ≠ "")).or p.profile.gpuDeviceName = some actual ∧
      text.casefold actual = text.casefold v
  computeCapability : ∀ v, spec.minComputeCapability = some v → v ≠ "" →
    ∃ required actual, Placement.capabilityTuple text (some v) = some required ∧
      Placement.capabilityTuple text p.profile.gpuComputeCapability = some actual ∧
      Placement.capabilityLe required actual = true
  driverVersion : ∀ v, spec.requiredDriverVersion = some v → v ≠ "" →
    p.profile.gpuDriverVersion = some v
  requiredTags : ∀ e ∈ spec.requiredWorkerTags.entries,
    ((ctx.workerTags.get? p.workerId).getD ∅).get? e.1 = some e.2
  affinity : spec.affinityMode ≠ .none → spec.affinityHard = true →
    Placement.affinityMatch ctx spec p.profile = true
  capabilities : Placement.missingCapabilities text spec
    ((ctx.workerTags.get? p.workerId).getD ∅) = []

/-- The workload asks for no runtime compatibility. -/
def AsksNoRuntime (spec : WorkloadSpec) : Prop :=
  Placement.isSet spec.requiredRuntimeCompatibility = false

/-- The worker gives an eligible profile. -/
def IsEligible (text : TextFunctions) (ctx : PlacementContext) (spec : WorkloadSpec)
    (p : TelemetryProfile) : Prop :=
  ∃ r, p.reading = some r ∧ Placement.eligible text ctx spec r = true

theorem eligible_iff {r : WorkerResourceProfile} : Placement.eligible text ctx spec r = true ↔
    (∀ g ∈ Placement.gates text ctx spec r, g.1 = true) ∧
      Placement.missingCapabilities text spec ((ctx.workerTags.get? r.workerId).getD ∅) = [] := by
  unfold Placement.eligible Placement.rejectionReasons
  rw [decide_eq_true_iff, List.append_eq_nil_iff, List.map_eq_nil_iff, List.filter_eq_nil_iff]
  simp only [Bool.not_eq_true', Bool.not_eq_false]

/-- A check that is made when there is a requirement. -/
theorem not_isSet_or_iff {o : Option String} {check : Bool} {P : String → Prop}
    (h : ∀ v, o = some v → (check = true ↔ P v)) :
    (!Placement.isSet o || check) = true ↔ ∀ v, o = some v → v ≠ "" → P v := by
  cases o with
  | none => simp [Placement.isSet]
  | some v =>
    rw [Bool.or_eq_true, Bool.not_eq_true', h v rfl]
    by_cases hv : v = "" <;> simp [Placement.isSet, hv]

/-- The checks of texts that are compared without regard to case. -/
theorem map_casefold_eq_iff {actual : Option String} {v : String} :
    actual.map text.casefold = (some v).map text.casefold ↔
      ∃ a, actual = some a ∧ text.casefold a = text.casefold v := by
  rw [Option.map_some, Option.map_eq_some_iff]

theorem filter_or_eq {o o' : Option String} :
    (if Placement.isSet o then o else o') = (o.filter (· ≠ "")).or o' := by
  cases o with
  | none => rfl
  | some v => by_cases hv : v = "" <;> simp [Placement.isSet, Option.filter, hv]

theorem freshTelemetry_iff {r : WorkerResourceProfile} {o : Option PyFloat}
    (h : r.timestampUtc = o.bind fun
      | .finite t => some t
      | _ => none) :
    Placement.freshTelemetry ctx.nowUtc r = true ↔
      ∃ t, o = some (.finite t) ∧ 0 ≤ ctx.nowUtc - t ∧ ctx.nowUtc - t ≤ 10 := by
  unfold Placement.freshTelemetry Placement.STALE_PROFILE_SECONDS
  rw [h]
  rcases o with _ | _ | _ | _ | _ <;> simp

theorem reading_eq_some_iff {r : WorkerResourceProfile} : p.reading = some r ↔
    ∃ used, p.cpuUtilizationPercent = .finite used ∧
      r = { p.profile with cpuUtilizationPercent := used, timestampUtc := p.finiteTimestamp } := by
  unfold TelemetryProfile.reading
  cases p.cpuUtilizationPercent <;> simp [eq_comm]

section Checks

variable {r : WorkerResourceProfile}

theorem gpuVendor_check : (!Placement.isSet spec.requiredGpuVendor ||
    decide (r.gpuVendor.map text.casefold = spec.requiredGpuVendor.map text.casefold)) = true ↔
      ∀ v, spec.requiredGpuVendor = some v → v ≠ "" →
        ∃ actual, r.gpuVendor = some actual ∧ text.casefold actual = text.casefold v := by
  refine not_isSet_or_iff fun v hv => ?_
  rw [decide_eq_true_iff, hv]
  exact map_casefold_eq_iff

theorem gpuModel_check : (!Placement.isSet spec.requiredGpuModel ||
    decide ((if Placement.isSet r.gpuModel then r.gpuModel else r.gpuDeviceName).map text.casefold =
      spec.requiredGpuModel.map text.casefold)) = true ↔
      ∀ v, spec.requiredGpuModel = some v → v ≠ "" →
        ∃ actual, (r.gpuModel.filter (· ≠ "")).or r.gpuDeviceName = some actual ∧
          text.casefold actual = text.casefold v := by
  refine not_isSet_or_iff fun v hv => ?_
  rw [decide_eq_true_iff, hv, filter_or_eq]
  exact map_casefold_eq_iff

theorem computeCapability_check : (!Placement.isSet spec.minComputeCapability ||
    match Placement.capabilityTuple text spec.minComputeCapability,
        Placement.capabilityTuple text r.gpuComputeCapability with
      | some required, some actual => Placement.capabilityLe required actual
      | _, _ => false) = true ↔
      ∀ v, spec.minComputeCapability = some v → v ≠ "" →
        ∃ required actual, Placement.capabilityTuple text (some v) = some required ∧
          Placement.capabilityTuple text r.gpuComputeCapability = some actual ∧
          Placement.capabilityLe required actual = true := by
  refine not_isSet_or_iff fun v hv => ?_
  rw [hv]
  cases Placement.capabilityTuple text (some v) <;>
    cases Placement.capabilityTuple text r.gpuComputeCapability <;> simp

theorem driverVersion_check : (!Placement.isSet spec.requiredDriverVersion ||
    decide (r.gpuDriverVersion = spec.requiredDriverVersion)) = true ↔
      ∀ v, spec.requiredDriverVersion = some v → v ≠ "" → r.gpuDriverVersion = some v := by
  refine not_isSet_or_iff fun v hv => ?_
  rw [decide_eq_true_iff, hv]

/-- A check of memory: enough is free, and no more than there is. -/
theorem memory_check {required available total : ℕ} :
    ((decide (total < available) || decide (required ≤ available)) = true ∧
      decide (available ≤ total) = true) ↔ required ≤ available ∧ available ≤ total := by
  simp only [Bool.or_eq_true, decide_eq_true_iff]
  omega

theorem affinity_check : (decide (spec.affinityMode = .none) ||
    Placement.affinityMatch ctx spec r || !spec.affinityHard) = true ↔
      (spec.affinityMode ≠ .none → spec.affinityHard = true →
        Placement.affinityMatch ctx spec r = true) := by
  by_cases hmode : spec.affinityMode = .none <;> cases spec.affinityHard <;> simp [hmode]

theorem cost_check : spec.maxCostPerHour.all (fun c => (PyFloat.finite r.costPerHour).le c) = true ↔
    ∀ c, spec.maxCostPerHour = some c → (PyFloat.finite r.costPerHour).le c := by
  cases spec.maxCostPerHour <;> simp

end Checks

/-- The gates of a worker with finite telemetry are the checks that are made, except the one of the
runtime compatibility. -/
theorem gates_iff {used : ℚ} (hused : p.cpuUtilizationPercent = .finite used) :
    ((∀ g ∈ Placement.gates text ctx spec
        { p.profile with cpuUtilizationPercent := used, timestampUtc := p.finiteTimestamp },
        g.1 = true) ∧
      Placement.missingCapabilities text spec ((ctx.workerTags.get? p.workerId).getD ∅) = []) ↔
      PassesGates text ctx spec p ∧ AsksNoRuntime spec := by
  have htelemetry := @freshTelemetry_iff ctx
    { p.profile with cpuUtilizationPercent := used, timestampUtc := p.finiteTimestamp }
    p.timestampUtc rfl
  have htags : Placement.tagResult ((ctx.workerTags.get? p.workerId).getD ∅)
      spec.requiredWorkerTags = true ↔ ∀ e ∈ spec.requiredWorkerTags.entries,
        ((ctx.workerTags.get? p.workerId).getD ∅).get? e.1 = some e.2 := by
    simp [Placement.tagResult]
  simp only [Placement.gates, List.forall_mem_cons, affinity_check, htelemetry, gpuVendor_check,
    gpuModel_check, driverVersion_check, cost_check]
  constructor
  · rintro ⟨⟨haffinity, hactive, -, hexecute, hfresh, hcpu, hram, hram', hgpu, hvram, hvram',
      hconcurrency, hcost, hvendor, hmodel, hcapability, hdriver, hruntime, hrequired, -⟩,
      hcapabilities⟩
    refine ⟨⟨of_decide_eq_true hactive, hexecute, ⟨used, hused, of_decide_eq_true hcpu⟩, hfresh,
      memory_check.1 ⟨hram, hram'⟩, ?_, memory_check.1 ⟨hvram, hvram'⟩,
      of_decide_eq_true hconcurrency, hcost, hvendor, hmodel,
      (computeCapability_check (r := p.profile)).1 hcapability, hdriver, htags.1 hrequired,
        haffinity,
      hcapabilities⟩, ?_⟩
    · intro hneeds
      simpa [hneeds] using hgpu
    · simpa [AsksNoRuntime] using hruntime
  · rintro ⟨h, hruntime⟩
    obtain ⟨used', hused', hcpu⟩ := h.cpu
    obtain rfl := PyFloat.finite.inj (hused.symm.trans hused')
    have hram := memory_check.2 h.ram
    have hvram := memory_check.2 h.vram
    refine ⟨⟨h.affinity, decide_eq_true h.active, by simp [h.active], h.canExecute, h.telemetry,
      decide_eq_true hcpu, hram.1, hram.2, ?_, hvram.1, hvram.2, decide_eq_true h.concurrency,
      h.cost, h.gpuVendor, h.gpuModel, (computeCapability_check (r := p.profile)).2
        h.computeCapability, h.driverVersion, ?_,
      htags.2 h.requiredTags, by simp⟩, h.capabilities⟩
    · cases hneeds : Placement.needsGpu spec with
      | true => simpa using h.gpu hneeds
      | false => rfl
    · simpa [AsksNoRuntime] using hruntime

/-- **Who is eligible.** A worker that passes the gates, of a workload without a requirement of
runtime compatibility. -/
theorem isEligible_iff : IsEligible text ctx spec p ↔
    PassesGates text ctx spec p ∧ AsksNoRuntime spec := by
  constructor
  · rintro ⟨r, hr, he⟩
    obtain ⟨used, hused, rfl⟩ := reading_eq_some_iff.1 hr
    exact (gates_iff hused).1 (eligible_iff.1 he)
  · intro h
    obtain ⟨used, hused, -⟩ := h.1.cpu
    exact ⟨_, reading_eq_some_iff.2 ⟨used, hused, rfl⟩, eligible_iff.2 ((gates_iff hused).2 h)⟩

/-! ## The best workers -/

/-- The worker passes the gates, and the workload asks for no runtime compatibility. -/
def Admits (text : TextFunctions) (ctx : PlacementContext) (spec : WorkloadSpec)
    (p : TelemetryProfile) : Prop :=
  PassesGates text ctx spec p ∧ AsksNoRuntime spec

theorem filter_reading_isSome :
    (p.reading.filter (Placement.eligible text ctx spec)).isSome = true ↔
      Admits text ctx spec p := by
  rw [Admits, ← isEligible_iff, IsEligible, Option.isSome_iff_exists]
  simp only [Option.filter_eq_some_iff]

instance (p : TelemetryProfile) : Decidable (Admits text ctx spec p) :=
  decidable_of_iff _ filter_reading_isSome

/-- The final score of a worker, if its telemetry is finite. -/
def finalScoreOf (engine : PlacementEngine) (ctx : PlacementContext) (spec : WorkloadSpec)
    (sizes : Dict String ℤ) (p : TelemetryProfile) : ℚ :=
  p.reading.elim 0 (engine.finalScore ctx spec sizes)

/-- A worker that is admitted gives an eligible profile with its identifier and score. -/
theorem exists_eligible (engine : PlacementEngine) (sizes : Dict String ℤ) (hp : p ∈ profiles)
    (h : Admits text ctx spec p) :
    ∃ r ∈ eligibleProfiles text ctx spec profiles, r.workerId = p.workerId ∧
      engine.finalScoreOf ctx spec sizes p = engine.finalScore ctx spec sizes r := by
  obtain ⟨r, hr⟩ := Option.isSome_iff_exists.1 (filter_reading_isSome.2 h)
  obtain ⟨hr, he⟩ := Option.filter_eq_some_iff.1 hr
  refine ⟨r, mem_eligibleProfiles.2 ⟨p, hp, hr, he⟩, workerId_of_reading hr, ?_⟩
  rw [finalScoreOf, hr]
  rfl

theorem length_eligibleProfiles (profiles : List TelemetryProfile) :
    (eligibleProfiles text ctx spec profiles).length =
      profiles.countP fun p => Admits text ctx spec p := by
  rw [eligibleProfiles, List.length_filterMap_eq_countP]
  refine List.countP_congr fun p _ => ?_
  rw [decide_eq_true_iff]
  exact filter_reading_isSome

theorem exists_profile (engine : PlacementEngine) (sizes : Dict String ℤ)
    {r : WorkerResourceProfile} (h : r ∈ eligibleProfiles text ctx spec profiles) :
    ∃ p ∈ profiles, p.workerId = r.workerId ∧ Admits text ctx spec p ∧
      engine.finalScoreOf ctx spec sizes p = engine.finalScore ctx spec sizes r := by
  obtain ⟨p, hp, hr, he⟩ := mem_eligibleProfiles.1 h
  refine ⟨p, hp, (workerId_of_reading hr).symm, filter_reading_isSome.1 ?_, ?_⟩
  · rw [Option.filter_eq_some_iff.2 ⟨hr, he⟩]
    rfl
  · rw [finalScoreOf, hr]
    rfl

theorem evaluateGroup_ok {n : ℕ} (hn : 2 ≤ n) :
    engine.evaluateGroup text ctx spec sizes profiles n =
      .ok (engine.selectMembers text ctx spec sizes n profiles) := by
  rw [evaluateGroup, if_neg (by omega)]

theorem evaluate_eq_none_iff (hids : (profiles.map (·.workerId)).Nodup) :
    engine.evaluate text ctx spec sizes profiles = none ↔
      ∀ p ∈ profiles, ¬ Admits text ctx spec p := by
  have hperm :=
    perm_rankCandidates engine ctx spec sizes (nodup_eligibleProfiles text ctx spec hids)
  rw [evaluate, Option.map_eq_none_iff, List.head?_eq_none_iff, ← List.length_eq_zero_iff,
    hperm.length_eq, length_eligibleProfiles, List.countP_eq_zero]
  simp only [decide_eq_true_iff]

/-- The first in the order of preference is the best. -/
theorem evaluate_best (hids : (profiles.map (·.workerId)).Nodup) {d : PlacementDecision}
    (hd : engine.evaluate text ctx spec sizes profiles = some d) :
    ∃ p ∈ profiles, p.workerId = d.selectedWorkerId ∧ Admits text ctx spec p ∧
      ∀ q ∈ profiles, Admits text ctx spec q →
        engine.finalScoreOf ctx spec sizes q ≤ engine.finalScoreOf ctx spec sizes p := by
  have hnodup := nodup_eligibleProfiles text ctx spec hids
  have hperm := perm_rankCandidates engine ctx spec sizes hnodup
  have hsorted := pairwise_rankCandidates engine ctx spec sizes hnodup
  obtain ⟨r, hr, rfl⟩ := Option.map_eq_some_iff.1 hd
  obtain ⟨rest, hrest⟩ := List.head?_eq_some_iff.1 hr
  rw [hrest] at hperm hsorted
  obtain ⟨p, hp, hid, hadmits, hscore⟩ := exists_profile engine sizes
    (hperm.mem_iff.1 List.mem_cons_self)
  refine ⟨p, hp, hid, hadmits, fun q hq hqa => ?_⟩
  obtain ⟨r', hr', -, hscore'⟩ := exists_eligible engine sizes hq hqa
  rw [hscore, hscore']
  rcases List.mem_cons.1 (hperm.mem_iff.2 hr') with rfl | hmem
  · exact le_rfl
  · exact (List.pairwise_cons.1 hsorted).1 r' hmem

/-- The identifiers of a group are the first ones in the order of preference. -/
theorem selectMembers_spec (text : TextFunctions) (engine : PlacementEngine)
    (ctx : PlacementContext) (spec : WorkloadSpec) (sizes : Dict String ℤ)
    (hids : (profiles.map (·.workerId)).Nodup) (n : ℕ) :
    (engine.selectMembers text ctx spec sizes n profiles = none ↔
        (profiles.countP fun p => Admits text ctx spec p) < n) ∧
      ∀ ds, engine.selectMembers text ctx spec sizes n profiles = some ds → ds.length = n ∧
        ds.map (·.selectedWorkerId) = ((engine.rankCandidates ctx spec sizes
          (eligibleProfiles text ctx spec profiles)).take n).map (·.workerId) := by
  have hmap := map_selectMembers text engine ctx spec sizes hids n
  have hperm :=
    perm_rankCandidates engine ctx spec sizes (nodup_eligibleProfiles text ctx spec hids)
  rw [← length_eligibleProfiles]
  constructor
  · rw [← Option.map_eq_none_iff, hmap]
    split_ifs with hn
    · exact iff_of_false nofun (by omega)
    · exact iff_of_true rfl (by omega)
  · intro ds hds
    rw [hds, Option.map_some] at hmap
    split_ifs at hmap with hn
    have heq := Option.some.inj hmap
    refine ⟨?_, by rw [heq, List.map_take]⟩
    have hlength := congrArg List.length heq
    rw [List.length_map, List.length_take, List.length_map, hperm.length_eq] at hlength
    omega

/-- **The best eligible workers are selected.** -/
theorem selects_best (text : TextFunctions) (engine : PlacementEngine) (ctx : PlacementContext)
    (spec : WorkloadSpec) (sizes : Dict String ℤ) (profiles : List TelemetryProfile)
    (hids : (profiles.map (·.workerId)).Nodup) :
    ((engine.evaluate text ctx spec sizes profiles = none ↔
        ∀ p ∈ profiles, ¬ Admits text ctx spec p) ∧
      ∀ d, engine.evaluate text ctx spec sizes profiles = some d →
        ∃ p ∈ profiles, p.workerId = d.selectedWorkerId ∧ Admits text ctx spec p ∧
          ∀ q ∈ profiles, Admits text ctx spec q →
            engine.finalScoreOf ctx spec sizes q ≤ engine.finalScoreOf ctx spec sizes p) ∧
    ∀ n, 2 ≤ n → ∃ result, engine.evaluateGroup text ctx spec sizes profiles n = .ok result ∧
      (result = none ↔ (profiles.countP fun p => Admits text ctx spec p) < n) ∧
      ∀ ds, result = some ds → ds.length = n ∧ (ds.map (·.selectedWorkerId)).Nodup ∧
        (∀ d ∈ ds, ∃ p ∈ profiles, p.workerId = d.selectedWorkerId ∧ Admits text ctx spec p) ∧
        ∀ p ∈ profiles, Admits text ctx spec p → p.workerId ∈ ds.map (·.selectedWorkerId) →
          ∀ q ∈ profiles, Admits text ctx spec q → q.workerId ∉ ds.map (·.selectedWorkerId) →
            engine.finalScoreOf ctx spec sizes q ≤ engine.finalScoreOf ctx spec sizes p := by
  refine ⟨⟨evaluate_eq_none_iff hids, fun d hd => evaluate_best hids hd⟩, fun n hn => ?_⟩
  obtain ⟨hnone, hsome⟩ := selectMembers_spec text engine ctx spec sizes hids n
  refine ⟨_, evaluateGroup_ok hn, hnone, fun ds hds => ?_⟩
  obtain ⟨hlength, hmembers⟩ := hsome ds hds
  have hnodup := nodup_eligibleProfiles text ctx spec hids
  have hperm := perm_rankCandidates engine ctx spec sizes hnodup
  have hsorted := pairwise_rankCandidates engine ctx spec sizes hnodup
  generalize engine.rankCandidates ctx spec sizes (eligibleProfiles text ctx spec profiles) = ranked
    at hmembers hperm hsorted
  have hranked : (ranked.map (·.workerId)).Nodup := (hperm.map (·.workerId)).nodup_iff.2 hnodup
  rw [hmembers]
  refine ⟨hlength, hranked.sublist ((List.take_sublist n ranked).map _), fun d hd => ?_,
    fun p hp hpa hpid q hq hqa hqid => ?_⟩
  · have hdid : d.selectedWorkerId ∈ (ranked.take n).map (·.workerId) :=
      hmembers ▸ List.mem_map_of_mem hd
    obtain ⟨r, hr, hrid⟩ := List.mem_map.1 hdid
    obtain ⟨p, hp, hid, hadmits, -⟩ := exists_profile engine sizes
      (hperm.mem_iff.1 (List.mem_of_mem_take hr))
    exact ⟨p, hp, hid.trans hrid, hadmits⟩
  · obtain ⟨rp, hrp, hrpid, hpscore⟩ := exists_eligible engine sizes hp hpa
    obtain ⟨rq, hrq, hrqid, hqscore⟩ := exists_eligible engine sizes hq hqa
    obtain ⟨r, hr, hrid⟩ := List.mem_map.1 hpid
    obtain rfl := eq_of_workerId hnodup hrp (hperm.mem_iff.1 (List.mem_of_mem_take hr))
      (hrpid.trans hrid.symm)
    rw [← List.take_append_drop n ranked] at hsorted hperm
    rw [hpscore, hqscore]
    refine (List.pairwise_append.1 hsorted).2.2 rp hr rq ?_
    exact (List.mem_append.1 (hperm.mem_iff.2 hrq)).resolve_left fun hin =>
      hqid (List.mem_map.2 ⟨rq, hin, hrqid⟩)

/-- Text functions that leave texts alone. -/
def plainText : TextFunctions where
  lower := id
  casefold := id
  parseInt := fun _ => none

/-- A worker with a GPU and a number of cores, all of them free. -/
def idleWorker (wid : String) (cores : ℕ) : TelemetryProfile :=
  .ofReading
    { workerId := wid, endpointUrl := "http://10.0.0.1:8000", ipAddress := "10.0.0.1"
      cpuCoresTotal := cores, cpuUtilizationPercent := 0, ramTotalBytes := 8 * 1024 ^ 3
      ramAvailableBytes := 4 * 1024 ^ 3, gpuAvailable := true, timestampUtc := some 0 }

/-- An evaluation a second after the telemetry, without tags and groups. -/
def plainContext : PlacementContext where
  workerTags := ∅
  groupWorkers := ∅
  nowUtc := 1

/-- A workload without requirements, and one that asks for a runtime. -/
def plainSpec : WorkloadSpec := { workloadId := "w", taskType := "compute" }

def runtimeSpec : WorkloadSpec := { plainSpec with requiredRuntimeCompatibility := some "cuda" }

/-- The engine of the coordinator when nothing has been learned. -/
def coldEngine : PlacementEngine where
  m7Bridge := some {}

/-- Of two workers the one with more cores is selected, and both make a group. -/
theorem selects_best_two :
    (∃ p ∈ [idleWorker "a" 2, idleWorker "b" 8], p.workerId = "b" ∧
      Admits plainText plainContext plainSpec p ∧
      ∀ q ∈ [idleWorker "a" 2, idleWorker "b" 8], Admits plainText plainContext plainSpec q →
        coldEngine.finalScoreOf plainContext plainSpec ∅ q ≤
          coldEngine.finalScoreOf plainContext plainSpec ∅ p) ∧
    ∃ ds, coldEngine.evaluateGroup plainText plainContext plainSpec ∅
      [idleWorker "a" 2, idleWorker "b" 8] 2 = .ok (some ds) ∧ ds.length = 2 := by
  have hids : ([idleWorker "a" 2, idleWorker "b" 8].map (·.workerId)).Nodup := by decide
  obtain ⟨⟨-, hbest⟩, hgroup⟩ := selects_best plainText coldEngine plainContext plainSpec ∅
    [idleWorker "a" 2, idleWorker "b" 8] hids
  have hselected : (coldEngine.evaluate plainText plainContext plainSpec ∅
      [idleWorker "a" 2, idleWorker "b" 8]).map (·.selectedWorkerId) = some "b" := by
    decide +kernel
  obtain ⟨d, hd, hid⟩ := Option.map_eq_some_iff.1 hselected
  obtain ⟨result, hresult, hnone, hsome⟩ := hgroup 2 le_rfl
  refine ⟨hid ▸ hbest d hd, ?_⟩
  cases result with
  | none =>
    have hcount : ([idleWorker "a" 2, idleWorker "b" 8].countP fun p =>
        Admits plainText plainContext plainSpec p) = 2 := by decide +kernel
    rw [hcount] at hnone
    exact absurd (hnone.1 rfl) (lt_irrefl 2)
  | some ds => exact ⟨ds, hresult, (hsome ds rfl).1⟩

/-- A worker can pass the gates and not be selected, for a workload that asks for a runtime. -/
theorem runtime_not_placed : ¬ ∀ (text : TextFunctions) (engine : PlacementEngine)
    (ctx : PlacementContext) (spec : WorkloadSpec) (sizes : Dict String ℤ)
    (profiles : List TelemetryProfile), (profiles.map (·.workerId)).Nodup →
      (engine.evaluate text ctx spec sizes profiles = none ↔
        ∀ p ∈ profiles, ¬ PassesGates text ctx spec p) := by
  intro hclaim
  have hnone :
      coldEngine.evaluate plainText plainContext runtimeSpec ∅ [idleWorker "a" 2] = none := by
    decide +kernel
  have hpasses : PassesGates plainText plainContext runtimeSpec (idleWorker "a" 2) := by
    refine ⟨rfl, rfl, ⟨0, rfl, ?_⟩, ⟨0, rfl, ?_, ?_⟩, by decide, fun _ => rfl, by decide, by decide,
      nofun, nofun, nofun, nofun, nofun, nofun, fun h => absurd rfl h, by decide +kernel⟩
    · norm_num [runtimeSpec, plainSpec, idleWorker, TelemetryProfile.ofReading]
    · norm_num [plainContext]
    · norm_num [plainContext]
  exact (hclaim plainText coldEngine plainContext runtimeSpec ∅ [idleWorker "a" 2]
    (by decide)).1 hnone _ (List.mem_singleton_self _) hpasses

end Aidars.PlacementEngine
