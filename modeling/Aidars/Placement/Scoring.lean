import Aidars.M7.Risk
import Aidars.Placement.Basic

/-!
# Scores and rankings of the placement engine

Among the workers that pass the hard gates, `PlacementEngine.evaluate` selects the first of a
ranking. Workers are ranked by a score of their resources, locality, tags and cost, and by their
identifiers when the scores are equal; with a bridge to the learned risk, they are then ranked by
the score less the weighted risk, in the order of the profiles when these are equal. `evaluateGroup`
evaluates once for each member. Scores are exact rationals.

`rankCandidates_eq` says what the two sorts and the positions of the second one amount to, and
`map_selectMembers` that the members of a group are the first ones of it.
-/

namespace Aidars

/-! ## Telemetry -/

/-- A profile as telemetry gives it: the utilization of the CPU and the time of the sample may be
infinite or `nan`. -/
structure TelemetryProfile where
  profile : WorkerResourceProfile
  cpuUtilizationPercent : PyFloat
  timestampUtc : Option PyFloat

namespace TelemetryProfile

/-- The worker of a profile. -/
def workerId (p : TelemetryProfile) : String := p.profile.workerId

/-- The time of the sample, if it is finite. -/
def finiteTimestamp (p : TelemetryProfile) : Option ℚ :=
  p.timestampUtc.bind fun
    | .finite t => some t
    | _ => none

/-- The profile with finite telemetry, if the utilization of the CPU is finite. -/
def reading (p : TelemetryProfile) : Option WorkerResourceProfile :=
  match p.cpuUtilizationPercent with
  | .finite q =>
    some { p.profile with cpuUtilizationPercent := q, timestampUtc := p.finiteTimestamp }
  | _ => none

/-- A profile whose telemetry is finite. -/
def ofReading (p : WorkerResourceProfile) : TelemetryProfile where
  profile := p
  cpuUtilizationPercent := .finite p.cpuUtilizationPercent
  timestampUtc := p.timestampUtc.map .finite

end TelemetryProfile

/-- The engine: its bridge to the learned risk, if it has one, and the weights of a score. -/
structure PlacementEngine where
  m7Bridge : Option M7.TelemetryMemory := none
  wC : ℚ := 1
  wM : ℚ := 1
  wG : ℚ := 2
  wD : ℚ := 2
  wN : ℚ := 1
  wL : ℚ := 0.5

/-- How much of the inputs of a workload a worker has. -/
structure Locality where
  localityClass : String
  assetCountFraction : ℚ
  knownByteFraction : Option ℚ
  knownAssetCount : ℕ
  unknownSizeCount : ℕ
  rankingBasis : String
  rankingFraction : ℚ

/-- The parts of a score. -/
structure ScoreBreakdown where
  compute : ℚ
  memory : ℚ
  gpu : ℚ
  locality : ℚ
  latency : ℚ
  queue : ℚ

namespace PlacementEngine

/-! ## Scores -/

/-- The locality of a workload at a worker, by known sizes or else by count. -/
def locality (spec : WorkloadSpec) (profile : WorkerResourceProfile)
    (assetSizesBytes : Dict String ℤ) : Locality :=
  let assets := spec.inputAssetHashes
  let cached := assets.filter (· ∈ profile.localCachedHashes)
  let countFraction : ℚ := if assets = ∅ then 1 else (cached.card : ℚ) / assets.card
  let known := assetSizesBytes.entries.filter (·.1 ∈ assets)
  let knownHashes := known.map Prod.fst
  let knownTotal := (known.map Prod.snd).sum
  let knownCached := ((known.filter (·.1 ∈ cached)).map Prod.snd).sum
  let unknownCount := (assets.filter (· ∉ knownHashes)).card
  let byteFraction : ℚ := knownCached / knownTotal
  let (fraction, rank, basis) : Option ℚ × ℚ × String :=
    if 0 < knownTotal ∧ unknownCount = 0 then (some byteFraction, byteFraction, "known_bytes")
    else if assets ≠ ∅ then
      (if 0 < knownTotal then some byteFraction else none, countFraction,
        "asset_count_fallback_incomplete_or_zero_sizes")
    else (some 1, 1, "no_input_assets")
  { localityClass :=
      if countFraction = 1 then "all_local" else if 0 < countFraction then "partial" else "none"
    assetCountFraction := countFraction
    knownByteFraction := fraction
    knownAssetCount := knownHashes.length
    unknownSizeCount := unknownCount
    rankingBasis := basis
    rankingFraction := rank }

/-- The cores of a worker that are free. -/
def availCpu (p : WorkerResourceProfile) : ℚ :=
  p.cpuCoresTotal * (1 - p.cpuUtilizationPercent / 100)

/-- The parts of the score of a worker. -/
def breakdown (spec : WorkloadSpec) (assetSizesBytes : Dict String ℤ)
    (p : WorkerResourceProfile) : ScoreBreakdown where
  compute := availCpu p / spec.minCpuCores
  memory :=
    if 0 < spec.minRamBytes then
      max 0 (min 2 ((p.ramAvailableBytes : ℚ) / spec.minRamBytes))
    else max 0 (min 2 ((p.ramAvailableBytes : ℚ) / (max 1 p.ramTotalBytes : ℕ) * 2))
  gpu :=
    if spec.requiresGpu ∧ p.gpuAvailable then
      1 + (p.vramAvailableBytes : ℚ) / (max 1 spec.minVramBytes : ℕ)
    else if !spec.requiresGpu then 1
    else 0
  locality := (locality spec p assetSizesBytes).assetCountFraction
  latency := 0
  queue := p.activeWorkloadCount

/-- The weighted sum of the parts. -/
def m6Score (engine : PlacementEngine) (b : ScoreBreakdown) : ℚ :=
  engine.wC * b.compute + engine.wM * b.memory + engine.wG * b.gpu + engine.wD * b.locality +
    engine.wN * b.latency - engine.wL * b.queue

/-- What sizes, tags, affinity and cost add to a score. -/
def m11RankFactors (engine : PlacementEngine) (ctx : PlacementContext) (spec : WorkloadSpec)
    (assetSizesBytes : Dict String ℤ) (p : WorkerResourceProfile) : List (String × ℚ) :=
  let l := locality spec p assetSizesBytes
  let tags := (ctx.workerTags.get? p.workerId).getD ∅
  (if assetSizesBytes.entries ≠ [] then
    [("locality_weighting_adjustment", (l.rankingFraction - l.assetCountFraction) * engine.wD)]
    else []) ++
  (if spec.preferredWorkerTags.entries ≠ [] then
    [("preferred_worker_tags",
      if Placement.tagResult tags spec.preferredWorkerTags then 0.25 else 0)] else []) ++
  (if spec.affinityMode ≠ .none ∧ !spec.affinityHard then
    [("preferred_affinity", if Placement.affinityMatch ctx spec p then 0.25 else -0.25)]
    else []) ++
  if 0 < p.costPerHour then [("cost_penalty", -p.costPerHour)] else []

/-- The score that workers are ranked by. -/
def rankScore (engine : PlacementEngine) (ctx : PlacementContext) (spec : WorkloadSpec)
    (assetSizesBytes : Dict String ℤ) (p : WorkerResourceProfile) : ℚ :=
  engine.m6Score (breakdown spec assetSizesBytes p) +
    ((engine.m11RankFactors ctx spec assetSizesBytes p).map Prod.snd).sum

/-! ## Rankings -/

/-- The scores of the eligible workers, in the order of the profiles. -/
def rankScores (engine : PlacementEngine) (ctx : PlacementContext) (spec : WorkloadSpec)
    (assetSizesBytes : Dict String ℤ) (eligible : List WorkerResourceProfile) : Dict String ℚ :=
  .ofList (eligible.map fun p => (p.workerId, engine.rankScore ctx spec assetSizesBytes p))

/-- The workers by falling score, and by their identifiers. -/
def rankByScore (engine : PlacementEngine) (ctx : PlacementContext) (spec : WorkloadSpec)
    (assetSizesBytes : Dict String ℤ) (eligible : List WorkerResourceProfile) :
    List WorkerResourceProfile :=
  sortOn (fun p => toLex (-engine.rankScore ctx spec assetSizesBytes p, p.workerId)) eligible

/-- The place of an identifier in a list, from one; an identifier that is missing is after all. -/
def position (ids : List String) (wid : String) : ℕ := ids.idxOf wid + 1

/-- The identifiers in the order that the bridge gives them, if there is one. -/
def orderedIds (engine : PlacementEngine) (ctx : PlacementContext) (spec : WorkloadSpec)
    (assetSizesBytes : Dict String ℤ) (eligible : List WorkerResourceProfile) :
    Option (List String) :=
  engine.m7Bridge.map fun memory =>
    M7.adjustRanking memory (engine.rankScores ctx spec assetSizesBytes eligible)
      (M7.evaluateCandidates memory spec
        (engine.rankByScore ctx spec assetSizesBytes eligible)) 0.5

/-- The eligible workers in the order of preference. -/
def rankCandidates (engine : PlacementEngine) (ctx : PlacementContext) (spec : WorkloadSpec)
    (assetSizesBytes : Dict String ℤ) (eligible : List WorkerResourceProfile) :
    List WorkerResourceProfile :=
  let ranked := engine.rankByScore ctx spec assetSizesBytes eligible
  match engine.orderedIds ctx spec assetSizesBytes eligible with
  | some ids => sortOn (fun p => toLex (position ids p.workerId, p.workerId)) ranked
  | none => ranked

/-- How far the bridge has moved each worker. -/
def m7Adjustments (engine : PlacementEngine) (ctx : PlacementContext) (spec : WorkloadSpec)
    (assetSizesBytes : Dict String ℤ) (eligible : List WorkerResourceProfile) :
    Dict String PyFloat :=
  let before := (engine.rankByScore ctx spec assetSizesBytes eligible).map (·.workerId)
  match engine.orderedIds ctx spec assetSizesBytes eligible with
  | some ids => .ofList (ids.map fun wid =>
      (wid, .finite ((position before wid : ℚ) - position ids wid)))
  | none => ∅

/-! ## Evaluation -/

variable (text : TextFunctions)

/-- The workers that pass the gates. -/
def eligibleProfiles (ctx : PlacementContext) (spec : WorkloadSpec)
    (profiles : List TelemetryProfile) : List WorkerResourceProfile :=
  profiles.filterMap fun p => p.reading.filter (Placement.eligible text ctx spec)

/-- The decision for the selected worker. -/
def decision (engine : PlacementEngine) (ctx : PlacementContext) (spec : WorkloadSpec)
    (assetSizesBytes : Dict String ℤ) (eligible : List WorkerResourceProfile)
    (p : WorkerResourceProfile) : PlacementDecision :=
  let b := breakdown spec assetSizesBytes p
  { workloadId := spec.workloadId
    selectedWorkerId := p.workerId
    placementScore := .finite (engine.m6Score b)
    scoreBreakdown := .ofList [("compute", .finite b.compute), ("memory", .finite b.memory),
      ("gpu", .finite b.gpu), ("locality", .finite b.locality), ("latency", .finite b.latency),
      ("queue", .finite b.queue)]
    missingAssetsOnWorker := spec.inputAssetHashes.filter (· ∉ p.localCachedHashes)
    executionTier := "lan"
    decisionTimestampUtc := .finite ctx.nowUtc
    m7RankingAdjustments := engine.m7Adjustments ctx spec assetSizesBytes eligible }

/-- Select the best eligible worker, if there is one. -/
def evaluate (engine : PlacementEngine) (ctx : PlacementContext) (spec : WorkloadSpec)
    (assetSizesBytes : Dict String ℤ) (profiles : List TelemetryProfile) :
    Option PlacementDecision :=
  let eligible := eligibleProfiles text ctx spec profiles
  (engine.rankCandidates ctx spec assetSizesBytes eligible).head?.map
    (engine.decision ctx spec assetSizesBytes eligible)

/-- Select the members of a group one after the other. -/
def selectMembers (engine : PlacementEngine) (ctx : PlacementContext) (spec : WorkloadSpec)
    (assetSizesBytes : Dict String ℤ) :
    ℕ → List TelemetryProfile → Option (List PlacementDecision)
  | 0, _ => some []
  | n + 1, remaining =>
    match engine.evaluate text ctx spec assetSizesBytes remaining with
    | none => none
    | some d =>
      (selectMembers engine ctx spec assetSizesBytes n
        (remaining.filter (·.workerId ≠ d.selectedWorkerId))).map (d :: ·)

/-- Select a complete group, or none. A group has at least two workers. -/
def evaluateGroup (engine : PlacementEngine) (ctx : PlacementContext) (spec : WorkloadSpec)
    (assetSizesBytes : Dict String ℤ) (profiles : List TelemetryProfile) (workerCount : ℕ) :
    Except String (Option (List PlacementDecision)) :=
  if workerCount < 2 then .error "distributed execution groups require at least two workers"
  else .ok (engine.selectMembers text ctx spec assetSizesBytes workerCount profiles)

/-! ## The order of preference -/

/-- The score that decides, of a worker: the one that it is ranked by, less the weighted risk if the
engine has a bridge. -/
def finalScore (engine : PlacementEngine) (ctx : PlacementContext) (spec : WorkloadSpec)
    (assetSizesBytes : Dict String ℤ) (p : WorkerResourceProfile) : ℚ :=
  engine.rankScore ctx spec assetSizesBytes p - engine.m7Bridge.elim 0 fun memory =>
    M7.effectiveLambda memory 0.5 * (M7.evaluateCandidate memory spec p).totalRisk

variable {text} {engine : PlacementEngine} {ctx : PlacementContext} {spec : WorkloadSpec}
  {sizes : Dict String ℤ} {memory : M7.TelemetryMemory} {l : List WorkerResourceProfile}
  {profiles : List TelemetryProfile} {p q : WorkerResourceProfile}

theorem perm_rankByScore (engine : PlacementEngine) (ctx : PlacementContext) (spec : WorkloadSpec)
    (sizes : Dict String ℤ) (l : List WorkerResourceProfile) :
    (engine.rankByScore ctx spec sizes l).Perm l :=
  perm_sortOn _ l

/-- Workers of a list are known by their identifiers. -/
theorem eq_of_workerId (hl : (l.map (·.workerId)).Nodup) (hp : p ∈ l) (hq : q ∈ l)
    (h : p.workerId = q.workerId) : p = q :=
  List.inj_on_of_nodup_map hl hp hq h

theorem get?_finalScores (hl : (l.map (·.workerId)).Nodup) (hm : engine.m7Bridge = some memory)
    (hp : p ∈ l) :
    (M7.finalScores memory (engine.rankScores ctx spec sizes l)
      (M7.evaluateCandidates memory spec (engine.rankByScore ctx spec sizes l)) 0.5).get?
        p.workerId = some (engine.finalScore ctx spec sizes p) := by
  have hscore : (engine.rankScores ctx spec sizes l).get? p.workerId =
      some (engine.rankScore ctx spec sizes p) := by
    refine Dict.get?_ofList ?_ (List.mem_map.2 ⟨p, hp, rfl⟩)
    rw [List.map_map]
    exact hl
  have hranked := perm_rankByScore engine ctx spec sizes l
  have hrisk : (M7.evaluateCandidates memory spec (engine.rankByScore ctx spec sizes l)).get?
      p.workerId = some (M7.evaluateCandidate memory spec p) := by
    refine Dict.get?_ofList ?_ (List.mem_map.2 ⟨p, hranked.mem_iff.2 hp, rfl⟩)
    rw [List.map_map]
    exact (hranked.map (·.workerId)).nodup_iff.2 hl
  rw [M7.finalScores, Dict.get?_mapValues, hscore, Option.map_some, hrisk, finalScore, hm]
  rfl

theorem orderedIds_eq (hl : (l.map (·.workerId)).Nodup) (hm : engine.m7Bridge = some memory) :
    engine.orderedIds ctx spec sizes l =
      some ((sortOn (fun p => -engine.finalScore ctx spec sizes p) l).map (·.workerId)) := by
  have hkeys : (engine.rankScores ctx spec sizes l).keys = l.map (·.workerId) := by
    rw [rankScores, Dict.keys, Dict.entries_ofList, List.map_map]
    · rfl
    · rw [List.map_map]
      exact hl
  unfold orderedIds
  rw [hm, Option.map_some]
  congr 1
  unfold M7.adjustRanking
  split_ifs with hempty
  · have hranked : engine.rankByScore ctx spec sizes l = [] := by
      rw [M7.evaluateCandidates, Dict.entries_ofList] at hempty
      · exact List.map_eq_nil_iff.1 hempty
      · rw [List.map_map]
        exact ((perm_rankByScore engine ctx spec sizes l).map (·.workerId)).nodup_iff.2 hl
    obtain rfl : l = [] := List.nil_perm.1 (hranked ▸ perm_rankByScore engine ctx spec sizes l)
    rfl
  · unfold M7.byScore M7.finalScores
    rw [Dict.keys_mapValues, hkeys, ← map_sortOn (fun p : WorkerResourceProfile => p.workerId)]
    refine congrArg (List.map _) (sortOn_congr fun p hp => ?_)
    have hget : (M7.finalScores memory (engine.rankScores ctx spec sizes l)
        (M7.evaluateCandidates memory spec (engine.rankByScore ctx spec sizes l)) 0.5).get?
          p.workerId = some (engine.finalScore ctx spec sizes p) := get?_finalScores hl hm hp
    unfold M7.finalScores at hget
    rw [hget, Option.getD_some]

/-- The places of a list without repetitions rise. -/
theorem pairwise_position {s : List WorkerResourceProfile} (hs : (s.map (·.workerId)).Nodup) :
    s.Pairwise fun p q => toLex (position (s.map (·.workerId)) p.workerId, p.workerId) ≤
      toLex (position (s.map (·.workerId)) q.workerId, q.workerId) := by
  have hplace : ∀ i (hi : i < s.length), (s.map (·.workerId)).idxOf s[i].workerId = i := by
    intro i hi
    have hat := hs.idxOf_getElem i (by rwa [List.length_map])
    rwa [List.getElem_map] at hat
  refine List.pairwise_iff_getElem.2 fun i j hi hj hij => ?_
  refine (Prod.Lex.toLex_lt_toLex.2 (.inl ?_)).le
  unfold position
  rw [hplace i hi, hplace j hj]
  omega

/-- **The order of preference**: by falling score and identifiers, or with a bridge by falling final
score in the order of the list. -/
theorem rankCandidates_eq (hl : (l.map (·.workerId)).Nodup) :
    engine.rankCandidates ctx spec sizes l =
      if engine.m7Bridge.isNone then engine.rankByScore ctx spec sizes l
      else sortOn (fun p => -engine.finalScore ctx spec sizes p) l := by
  unfold rankCandidates
  cases hm : engine.m7Bridge with
  | none =>
    rw [orderedIds, hm]
    rfl
  | some memory =>
    rw [orderedIds_eq hl hm]
    have hperm := perm_sortOn (fun p => -engine.finalScore ctx spec sizes p) l
    refine sortOn_eq_of_perm_of_pairwise (fun p hp q hq h => ?_)
      ((perm_rankByScore engine ctx spec sizes l).trans hperm.symm)
      (pairwise_position ((hperm.map (·.workerId)).nodup_iff.2 hl))
    exact eq_of_workerId hl (mem_sortOn.1 hp) (mem_sortOn.1 hq) (Prod.mk.inj (toLex.injective h)).2

theorem perm_rankCandidates (engine : PlacementEngine) (ctx : PlacementContext)
    (spec : WorkloadSpec) (sizes : Dict String ℤ) (hl : (l.map (·.workerId)).Nodup) :
    (engine.rankCandidates ctx spec sizes l).Perm l := by
  rw [rankCandidates_eq hl]
  split_ifs
  · exact perm_rankByScore engine ctx spec sizes l
  · exact perm_sortOn _ l

theorem pairwise_rankCandidates (engine : PlacementEngine) (ctx : PlacementContext)
    (spec : WorkloadSpec) (sizes : Dict String ℤ) (hl : (l.map (·.workerId)).Nodup) :
    (engine.rankCandidates ctx spec sizes l).Pairwise fun p q =>
      engine.finalScore ctx spec sizes q ≤ engine.finalScore ctx spec sizes p := by
  rw [rankCandidates_eq hl]
  split_ifs with hm
  · rw [Option.isNone_iff_eq_none] at hm
    refine (pairwise_sortOn _ l).imp fun h => ?_
    have hscore := Prod.Lex.monotone_fst _ _ h
    unfold finalScore
    rw [hm]
    exact sub_le_sub_right (neg_le_neg_iff.1 hscore) 0
  · exact (pairwise_sortOn _ l).imp neg_le_neg_iff.1

theorem rankCandidates_filter (hl : (l.map (·.workerId)).Nodup)
    (keep : WorkerResourceProfile → Bool) :
    engine.rankCandidates ctx spec sizes (l.filter keep) =
      (engine.rankCandidates ctx spec sizes l).filter keep := by
  have hfilter : ((l.filter keep).map (·.workerId)).Nodup :=
    hl.sublist (List.filter_sublist.map _)
  rw [rankCandidates_eq hl, rankCandidates_eq hfilter]
  split_ifs
  · exact sortOn_filter keep l
  · exact sortOn_filter keep l

/-! ## The selected workers -/

theorem workerId_of_reading {p : TelemetryProfile} {r : WorkerResourceProfile}
    (h : p.reading = some r) : r.workerId = p.workerId := by
  unfold TelemetryProfile.reading at h
  split at h
  · obtain rfl := Option.some.inj h
    rfl
  · cases h

theorem mem_eligibleProfiles {r : WorkerResourceProfile} :
    r ∈ eligibleProfiles text ctx spec profiles ↔
      ∃ p ∈ profiles, p.reading = some r ∧ Placement.eligible text ctx spec r = true := by
  simp only [eligibleProfiles, List.mem_filterMap, Option.filter_eq_some_iff]

theorem eligibleProfiles_cons (p : TelemetryProfile) (profiles : List TelemetryProfile) :
    eligibleProfiles text ctx spec (p :: profiles) = eligibleProfiles text ctx spec profiles ∨
      ∃ r, r.workerId = p.workerId ∧ eligibleProfiles text ctx spec (p :: profiles) =
        r :: eligibleProfiles text ctx spec profiles := by
  unfold eligibleProfiles
  rw [List.filterMap_cons]
  cases hr : p.reading.filter (Placement.eligible text ctx spec) with
  | none => exact .inl rfl
  | some r => exact .inr ⟨r, workerId_of_reading (Option.filter_eq_some_iff.1 hr).1, rfl⟩

theorem sublist_eligibleProfiles (profiles : List TelemetryProfile) :
    ((eligibleProfiles text ctx spec profiles).map (·.workerId)).Sublist
      (profiles.map (·.workerId)) := by
  induction profiles with
  | nil => exact List.Sublist.refl []
  | cons p profiles ih =>
    obtain heq | ⟨r, hid, heq⟩ := eligibleProfiles_cons p profiles
    · rw [heq]
      exact ih.cons _
    · rw [heq, List.map_cons, List.map_cons, hid]
      exact ih.cons_cons _

theorem nodup_eligibleProfiles (text : TextFunctions) (ctx : PlacementContext)
    (spec : WorkloadSpec) (h : (profiles.map (·.workerId)).Nodup) :
    ((eligibleProfiles text ctx spec profiles).map (·.workerId)).Nodup :=
  h.sublist (sublist_eligibleProfiles profiles)

theorem eligibleProfiles_filter (wid : String) (profiles : List TelemetryProfile) :
    eligibleProfiles text ctx spec (profiles.filter (·.workerId ≠ wid)) =
      (eligibleProfiles text ctx spec profiles).filter (·.workerId ≠ wid) := by
  unfold eligibleProfiles
  induction profiles with
  | nil => rfl
  | cons p profiles ih =>
    rw [List.filter_cons, List.filterMap_cons]
    cases hr : p.reading.filter (Placement.eligible text ctx spec) with
    | none =>
      split_ifs
      · rw [List.filterMap_cons, hr]
        exact ih
      · exact ih
    | some r =>
      have hid := workerId_of_reading (Option.filter_eq_some_iff.1 hr).1
      rw [List.filter_cons, hid]
      split_ifs
      · rw [List.filterMap_cons, hr]
        exact congrArg (r :: ·) ih
      · exact ih

/-- The members of a group are the first ones in the order of preference. -/
theorem map_selectMembers (text : TextFunctions) (engine : PlacementEngine)
    (ctx : PlacementContext) (spec : WorkloadSpec) (sizes : Dict String ℤ)
    (h : (profiles.map (·.workerId)).Nodup) (n : ℕ) :
    (engine.selectMembers text ctx spec sizes n profiles).map (·.map (·.selectedWorkerId)) =
      if n ≤ (eligibleProfiles text ctx spec profiles).length then
        some (((engine.rankCandidates ctx spec sizes
          (eligibleProfiles text ctx spec profiles)).map (·.workerId)).take n)
      else none := by
  induction n generalizing profiles with
  | zero => rw [if_pos (Nat.zero_le _), List.take_zero]; rfl
  | succ n ih =>
    have hnodup := nodup_eligibleProfiles text ctx spec h
    have hperm := perm_rankCandidates engine ctx spec sizes hnodup
    unfold selectMembers evaluate
    dsimp only
    cases hr : engine.rankCandidates ctx spec sizes (eligibleProfiles text ctx spec profiles) with
    | nil =>
      rw [hr] at hperm
      rw [if_neg (by rw [← hperm.length_eq]; simp)]
      rfl
    | cons p rest =>
      have hselected : ((decision engine ctx spec sizes (eligibleProfiles text ctx spec profiles)
        p).selectedWorkerId) = p.workerId := rfl
      have hrest : (profiles.filter (·.workerId ≠ p.workerId)).map (·.workerId) =
          (profiles.map (·.workerId)).filter (· ≠ p.workerId) := by
        rw [List.filter_map]
        rfl
      have htail : engine.rankCandidates ctx spec sizes (eligibleProfiles text ctx spec
          (profiles.filter (·.workerId ≠ p.workerId))) = rest := by
        rw [eligibleProfiles_filter, rankCandidates_filter hnodup, hr]
        have hdistinct := (hperm.map (·.workerId)).nodup_iff.2 hnodup
        rw [hr, List.map_cons, List.nodup_cons] at hdistinct
        rw [List.filter_cons_of_neg (by simp), List.filter_eq_self]
        intro q hq
        rw [decide_eq_true_iff]
        rintro heq
        exact hdistinct.1 (heq ▸ List.mem_map_of_mem hq)
      have hids : ((profiles.filter (·.workerId ≠ p.workerId)).map (·.workerId)).Nodup := by
        rw [hrest]
        exact h.filter _
      have hlength : (eligibleProfiles text ctx spec
          (profiles.filter (·.workerId ≠ p.workerId))).length = rest.length := by
        rw [← htail]
        exact (perm_rankCandidates engine ctx spec sizes
          (nodup_eligibleProfiles text ctx spec hids)).length_eq.symm
      rw [List.head?_cons, Option.map_some]
      dsimp only
      have hcons : ∀ (d : PlacementDecision) (o : Option (List PlacementDecision)),
          (o.map (d :: ·)).map (·.map (·.selectedWorkerId)) =
            (o.map (·.map (·.selectedWorkerId))).map (d.selectedWorkerId :: ·) := by
        rintro d (_ | ds) <;> rfl
      rw [hcons, hselected, ih hids, htail, hlength, ← hperm.length_eq, hr, List.length_cons]
      by_cases hn : n ≤ rest.length
      · rw [if_pos hn, if_pos (Nat.succ_le_succ hn)]
        rfl
      · rw [if_neg hn, if_neg fun hle => hn (Nat.le_of_succ_le_succ hle)]
        rfl

end PlacementEngine

end Aidars
