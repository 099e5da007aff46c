import Aidars.Placement.Basic

/-!
# Tag affinity

A workload of an affinity group is placed by the tags of the workers that the group already uses.
The engine collects the tag's values at these workers into a set, and reads from the size of that
set whether every worker has the tag. The size is the number of workers only while no two of them
share a value: `sameTag_iff` and `differentTag_iff` say what the check therefore accepts, and
`tag_affinity` when this is what the two modes are for.
-/

namespace Aidars.Placement

variable {text : TextFunctions} {ctx : PlacementContext} {spec : WorkloadSpec}
  {p : WorkerResourceProfile}

/-- The value of the affinity tag at a worker. -/
def tagValue (ctx : PlacementContext) (spec : WorkloadSpec) (wid : String) : Option String :=
  (ctx.workerTags.get? wid).bind (·.get? (spec.affinityTagKey.getD ""))

/-- The worker has the tag, and every previous worker has it with the same value. -/
def SharesTag (ctx : PlacementContext) (spec : WorkloadSpec) (wid : String) : Prop :=
  ∃ t, tagValue ctx spec wid = some t ∧ ∀ w ∈ ctx.groupWorkers, tagValue ctx spec w = some t

/-- The worker has the tag, and every previous worker has it with another value. -/
def DiffersInTag (ctx : PlacementContext) (spec : WorkloadSpec) (wid : String) : Prop :=
  ∃ t, tagValue ctx spec wid = some t ∧
    ∀ w ∈ ctx.groupWorkers, ∃ u, tagValue ctx spec w = some u ∧ u ≠ t

/-- No value of the tag occurs at two of the previous workers. -/
def SeparateValues (ctx : PlacementContext) (spec : WorkloadSpec) : Prop :=
  (ctx.groupWorkers.toList.filterMap (tagValue ctx spec)).Nodup

/-- The affinity check does not reject the worker. -/
def PassesAffinity (text : TextFunctions) (ctx : PlacementContext) (spec : WorkloadSpec)
    (p : WorkerResourceProfile) : Prop :=
  "AFFINITY_CONSTRAINT_NOT_MET" ∉ rejectionReasons text ctx spec p

/-! ## The check -/

theorem affinity_notMem_missingCapabilities (tags : Dict String String) :
    "AFFINITY_CONSTRAINT_NOT_MET" ∉ missingCapabilities text spec tags := by
  unfold missingCapabilities
  dsimp only
  split_ifs <;> simp

/-- The check rejects by its own reason, and no other gate gives that reason. -/
theorem passesAffinity_iff (hmode : spec.affinityMode ≠ .none) (hhard : spec.affinityHard = true) :
    PassesAffinity text ctx spec p ↔ affinityMatch ctx spec p = true := by
  have hstale : ¬ "AFFINITY_CONSTRAINT_NOT_MET" =
      if p.timestampUtc = none then "MISSING_TELEMETRY" else "STALE_TELEMETRY" := by
    split_ifs <;> simp
  unfold PassesAffinity rejectionReasons
  rw [List.mem_append, or_iff_left (affinity_notMem_missingCapabilities _)]
  simp [gates, hmode, hhard, hstale, List.mem_map, List.mem_filter]

section Sizes

variable {α β : Type*} [DecidableEq β] {f : α → Option β} {l : List α}

/-- The distinct values are as many as the items when every item has a value of its own. -/
theorem length_ofList_filterMap_eq :
    (PySet.ofList (l.filterMap f)).toList.length = l.length ↔
      (∀ a ∈ l, (f a).isSome = true) ∧ (l.filterMap f).Nodup := by
  have hdedup : (l.filterMap f).dedup.length ≤ (l.filterMap f).length :=
    (l.filterMap f).dedup_sublist.length_le
  have hvalues := l.length_filterMap_le f
  change (l.filterMap f).dedup.length = l.length ↔ _
  constructor
  · intro h
    have hlen : (l.filterMap f).dedup.length = (l.filterMap f).length := by omega
    refine ⟨List.filterMap_length_eq_length.1 (by omega), ?_⟩
    exact List.dedup_eq_self.1 ((l.filterMap f).dedup_sublist.eq_of_length hlen)
  · rintro ⟨hsome, hnodup⟩
    rw [hnodup.dedup, List.filterMap_length_eq_length.2 hsome]

end Sizes

theorem allTagged_iff :
    (PySet.ofList (ctx.groupWorkers.toList.filterMap (tagValue ctx spec))).toList.length =
        ctx.groupWorkers.toList.length ↔
      (∀ w ∈ ctx.groupWorkers, (tagValue ctx spec w).isSome = true) ∧ SeparateValues ctx spec :=
  length_ofList_filterMap_eq

theorem mem_priorTags {t : String} :
    t ∈ PySet.ofList (ctx.groupWorkers.toList.filterMap (tagValue ctx spec)) ↔
      ∃ w ∈ ctx.groupWorkers, tagValue ctx spec w = some t := by
  rw [PySet.mem_ofList, List.mem_filterMap]
  rfl

theorem separateValues_of_length_one (h : ctx.groupWorkers.toList.length = 1) :
    SeparateValues ctx spec := by
  obtain ⟨w, hw⟩ := List.length_eq_one_iff.1 h
  unfold SeparateValues
  rw [hw]
  cases ht : tagValue ctx spec w <;> simp [ht]

/-- Under `same_tag` the check accepts the law's workers while the group has one worker. -/
theorem sameTag_iff (hprev : ctx.groupWorkers ≠ ∅) (hmode : spec.affinityMode = .sameTag) :
    affinityMatch ctx spec p = true ↔
      ctx.groupWorkers.toList.length = 1 ∧ SharesTag ctx spec p.workerId := by
  have hunfold : affinityMatch ctx spec p = true ↔ ∃ t, tagValue ctx spec p.workerId = some t ∧
      ((PySet.ofList (ctx.groupWorkers.toList.filterMap (tagValue ctx spec))).toList.length =
          ctx.groupWorkers.toList.length ∧
        (PySet.ofList (ctx.groupWorkers.toList.filterMap (tagValue ctx spec))).toList.length = 1) ∧
      t ∈ PySet.ofList (ctx.groupWorkers.toList.filterMap (tagValue ctx spec)) := by
    unfold affinityMatch
    simp only [hprev, if_false, hmode, Option.any_eq_true, Bool.and_eq_true, decide_eq_true_eq]
    rfl
  rw [hunfold]
  constructor
  · rintro ⟨t, ht, ⟨hall, hone⟩, hmem⟩
    rw [hall] at hone
    refine ⟨hone, t, ht, fun w hw => ?_⟩
    obtain ⟨v, hv, hvt⟩ := mem_priorTags.1 hmem
    obtain ⟨a, ha⟩ := List.length_eq_one_iff.1 hone
    have hwa : w = a := List.mem_singleton.1 (ha ▸ PySet.mem_toList.2 hw)
    have hva : v = a := List.mem_singleton.1 (ha ▸ PySet.mem_toList.2 hv)
    rw [hwa, ← hva, hvt]
  · rintro ⟨hone, t, ht, hshare⟩
    have hall := allTagged_iff.2 ⟨fun w hw => by rw [hshare w hw, Option.isSome_some],
      separateValues_of_length_one hone⟩
    obtain ⟨w, hw⟩ := PySet.exists_mem_of_ne hprev
    exact ⟨t, ht, ⟨hall, hall.trans hone⟩, mem_priorTags.2 ⟨w, hw, hshare w hw⟩⟩

/-- Under `different_tag` the check accepts the law's workers while the previous values are
separate. -/
theorem differentTag_iff (hprev : ctx.groupWorkers ≠ ∅)
    (hmode : spec.affinityMode = .differentTag) :
    affinityMatch ctx spec p = true ↔
      SeparateValues ctx spec ∧ DiffersInTag ctx spec p.workerId := by
  have hunfold : affinityMatch ctx spec p = true ↔ ∃ t, tagValue ctx spec p.workerId = some t ∧
      (PySet.ofList (ctx.groupWorkers.toList.filterMap (tagValue ctx spec))).toList.length =
          ctx.groupWorkers.toList.length ∧
      t ∉ PySet.ofList (ctx.groupWorkers.toList.filterMap (tagValue ctx spec)) := by
    unfold affinityMatch
    simp only [hprev, if_false, hmode, Option.any_eq_true, Bool.and_eq_true, decide_eq_true_eq]
    rfl
  rw [hunfold]
  constructor
  · rintro ⟨t, ht, hall, hmem⟩
    obtain ⟨hsome, hseparate⟩ := allTagged_iff.1 hall
    refine ⟨hseparate, t, ht, fun w hw => ?_⟩
    obtain ⟨u, hu⟩ := Option.isSome_iff_exists.1 (hsome w hw)
    exact ⟨u, hu, fun heq => hmem (mem_priorTags.2 ⟨w, hw, heq ▸ hu⟩)⟩
  · rintro ⟨hseparate, t, ht, hdiffers⟩
    refine ⟨t, ht, allTagged_iff.2 ⟨fun w hw => ?_, hseparate⟩, fun hmem => ?_⟩
    · obtain ⟨u, hu, -⟩ := hdiffers w hw
      rw [hu, Option.isSome_some]
    · obtain ⟨w, hw, hwt⟩ := mem_priorTags.1 hmem
      obtain ⟨u, hu, hne⟩ := hdiffers w hw
      exact hne (Option.some.inj (hu.symm.trans hwt))

/-! ## The law -/

theorem iff_law_iff {passes law condition : Prop} (h : passes ↔ condition ∧ law) :
    (passes ↔ law) ↔ condition ∨ ¬law := by
  tauto

/-- **When hard tag affinity is what it is for.** The check accepts exactly the workers that the
mode asks for as long as no value of the tag occurs at two previous workers: under `same_tag` that
is a group of one worker, under `different_tag` a group whose workers all differ. -/
theorem tag_affinity (text : TextFunctions) (ctx : PlacementContext) (spec : WorkloadSpec)
    (p : WorkerResourceProfile) (hprev : ctx.groupWorkers ≠ ∅) (hhard : spec.affinityHard = true) :
    (spec.affinityMode = .sameTag →
      ((PassesAffinity text ctx spec p ↔ SharesTag ctx spec p.workerId) ↔
        ctx.groupWorkers.toList.length = 1 ∨ ¬SharesTag ctx spec p.workerId)) ∧
    (spec.affinityMode = .differentTag →
      ((PassesAffinity text ctx spec p ↔ DiffersInTag ctx spec p.workerId) ↔
        SeparateValues ctx spec ∨ ¬DiffersInTag ctx spec p.workerId)) := by
  constructor
  · intro hmode
    have hne : spec.affinityMode ≠ .none := by simp [hmode]
    exact iff_law_iff ((passesAffinity_iff hne hhard).trans (sameTag_iff hprev hmode))
  · intro hmode
    have hne : spec.affinityMode ≠ .none := by simp [hmode]
    exact iff_law_iff ((passesAffinity_iff hne hhard).trans (differentTag_iff hprev hmode))

/-! ## Samples -/

/-- A workload that must share its group's zone. -/
def zoneSpec : WorkloadSpec :=
  { workloadId := "w", taskType := "render", affinityGroupId := some "g", affinityMode := .sameTag,
    affinityTagKey := some "zone" }

/-- A worker's profile. -/
def zoneProfile (wid : String) : WorkerResourceProfile :=
  { workerId := wid, endpointUrl := "", ipAddress := "", cpuCoresTotal := 4,
    cpuUtilizationPercent := 0, ramTotalBytes := 8, ramAvailableBytes := 8 }

/-- The workers `a` and `b` in zone `x`, `c` in `y` and `d` in `z`, some of them used by the
group. -/
def zoneContext (used : List String) : PlacementContext where
  workerTags := .ofList ([("a", "x"), ("b", "x"), ("c", "y"), ("d", "z")].map fun (wid, zone) =>
    (wid, .ofList [("zone", zone)]))
  groupWorkers := PySet.ofList used
  nowUtc := 0

theorem sharesTag_zone (used : List String) (hused : used ⊆ ["a", "b"]) :
    SharesTag (zoneContext used) zoneSpec "a" := by
  refine ⟨"x", rfl, fun w hw => ?_⟩
  have hmem : w ∈ ["a", "b"] := hused (PySet.mem_ofList.1 hw)
  rcases List.mem_cons.1 hmem with rfl | hmem
  · rfl
  · obtain rfl := List.mem_singleton.1 hmem
    rfl

/-- The second workload of the group goes where the first one is, or, where the zones must differ,
the third to a third zone. -/
theorem tag_affinity_one :
    PassesAffinity ⟨id, id, fun _ => none⟩ (zoneContext ["a"]) zoneSpec (zoneProfile "a") ∧
      PassesAffinity ⟨id, id, fun _ => none⟩ (zoneContext ["a", "c"])
        { zoneSpec with affinityMode := .differentTag } (zoneProfile "d") := by
  have hshared := (tag_affinity ⟨id, id, fun _ => none⟩ (zoneContext ["a"]) zoneSpec
    (zoneProfile "a") (by decide) rfl).1 rfl
  have hdiffer := (tag_affinity ⟨id, id, fun _ => none⟩ (zoneContext ["a", "c"])
    { zoneSpec with affinityMode := .differentTag } (zoneProfile "d") (by decide) rfl).2 rfl
  have hseparate : SeparateValues (zoneContext ["a", "c"])
      { zoneSpec with affinityMode := .differentTag } := by
    unfold SeparateValues
    decide
  refine ⟨(hshared.2 (.inl rfl)).2 (sharesTag_zone _ (by simp)),
    (hdiffer.2 (.inl hseparate)).2 ⟨"z", rfl, fun w hw => ?_⟩⟩
  have hmem : w ∈ ["a", "c"] := PySet.mem_ofList.1 hw
  rcases List.mem_cons.1 hmem with rfl | hmem
  · exact ⟨"x", rfl, by decide⟩
  · obtain rfl := List.mem_singleton.1 hmem
    exact ⟨"y", rfl, by decide⟩

/-- A group whose two workers share their zone has no worker for a third workload, not even one of
the two. -/
theorem shared_zone_rejected :
    ¬ ∀ (text : TextFunctions) (ctx : PlacementContext) (spec : WorkloadSpec)
      (p : WorkerResourceProfile), ctx.groupWorkers ≠ ∅ → spec.affinityHard = true →
        spec.affinityMode = .sameTag →
        (PassesAffinity text ctx spec p ↔ SharesTag ctx spec p.workerId) := by
  intro hlaw
  have hpass := (hlaw ⟨id, id, fun _ => none⟩ (zoneContext ["a", "b"]) zoneSpec (zoneProfile "a")
    (by decide) rfl rfl).2 (sharesTag_zone _ (by simp))
  have hmatch := (passesAffinity_iff (by decide) rfl).1 hpass
  exact absurd hmatch (by decide)

end Aidars.Placement
