import Aidars.Orchestrator.Probe

/-!
# Placement of restored jobs

A run of a workload reads the record of its job when it enters its loop, and `pick` is what
placement decides from there. A record that is read back from its row has the members, the policy
and the sets of workers of the one that was written (`Restores`). Its shape may differ: a job of one
workload that was split becomes a job of a single machine, which no longer prefers idle workers.
`restart_keeps_placement_iff` states when placement notices: when such a job has selected several
workers.
-/

namespace Aidars.Orchestrator

variable {cfg : Config} {s s₁ s₂ : State} {f f₁ f₂ : Frame} {job job' : JobRecord}
  {w : String} {spec : WorkloadSpec} {ranking : Ranking} {now createdAt : ℚ}

namespace State

/-- What placement decides for a run that enters its loop with a frame. -/
def pick (cfg : Config) (s : State) (w : String) (f : Frame) (ranking : Ranking) (now : ℚ) :
    Option (List PlacementDecision) :=
  let (s, f) := s.promoteSpare f
  if f.allSelectedExhausted then none
  else
    let (s, f) := s.promoteSpare f
    s.choose cfg w f ranking now

/-- What placement decides for a workload when its job has a record and some workers are
excluded. -/
def pickFor (cfg : Config) (s : State) (job : JobRecord) (spec : WorkloadSpec)
    (exhausted : PySet String) (ranking : Ranking) (now : ℚ) : Option (List PlacementDecision) :=
  let s := { s with jobs := s.jobs.set job.jobId job }
  s.pick cfg spec.workloadId
    { s.initialFrame spec.workloadId spec with exhaustedWorkerIds := exhausted } ranking now

end State

/-! ## Records that can be written -/

/-- The records that `submit_job` creates, and those that promotions of spare workers make of them.
An identifier that is minted for a job is not empty. -/
inductive Reachable : JobRecord → Prop
  | submitted (cfg : Config) (sizer : Sizing.ClusterSizer) (s : State) (call : SubmitCall)
    (j : String)
      (job : JobRecord) (hfresh : call.freshId ≠ "") (hid : call.jobId = .ok j)
      (hplan : planJob cfg sizer s call j = .ok job) : Reachable job
  | promoted (job : JobRecord) (selected exhausted : PySet String) (n : ℕ) (h : Reachable job) :
      Reachable (job.maybePromoteSpareWorker selected exhausted n).1

theorem jobId_ne_empty {call : SubmitCall} {j : String} (hfresh : call.freshId ≠ "")
    (hid : call.jobId = .ok j) : j ≠ "" := by
  unfold SubmitCall.jobId at hid
  split_ifs at hid
  split at hid
  · obtain rfl := Except.ok.inj hid
    exact hfresh
  · rename_i i hi
    obtain rfl := Except.ok.inj hid
    have hmem : i ∈ ((call.specs.filterMap (·.jobId)).filter (· ≠ "")).dedup := by
      rw [hi]
      exact List.mem_singleton_self i
    exact of_decide_eq_true (List.mem_filter.1 (List.mem_dedup.1 hmem)).2
  · cases hid

/-- What is known of a reachable record. -/
structure Listed (job : JobRecord) : Prop where
  valid : job.Valid
  jobId : job.jobId ≠ ""
  selected : job.selectedWorkerIds ≠ some []
  spare : job.spareIds.Pairwise (· ≤ ·)

theorem Listed.promote {selected exhausted : PySet String} {n : ℕ} (h : Listed job) :
    Listed (job.maybePromoteSpareWorker selected exhausted n).1 := by
  rcases job.maybePromoteSpareWorker_cases selected exhausted n with ⟨he, -⟩ |
    ⟨promoted, rest, -, hfilter, he⟩
  · rw [he]
    exact h
  · have hvalid : (job.maybePromoteSpareWorker selected exhausted n).1.Valid :=
      JobRecord.valid_maybePromoteSpareWorker h.valid
    rw [he] at hvalid ⊢
    refine ⟨hvalid, h.jobId, ?_, ?_⟩
    · cases hsel : job.selectedWorkerIds with
      | none => nofun
      | some ids =>
        simp only [Option.map_some, ne_eq, Option.some.injEq]
        split_ifs with hin
        · rintro rfl
          cases hin
        · simp
    · have hrest := h.spare.filter (· ∉ exhausted)
      rw [hfilter] at hrest
      exact (List.pairwise_cons.1 hrest).2

/-- A reachable record is valid, has an identifier, and lists its spare workers in order. -/
theorem Reachable.listed (h : Reachable job) : Listed job := by
  induction h with
  | submitted cfg sizer s call j job hfresh hid hplan =>
    obtain ⟨-, -, assigned, spare, -, hcreate⟩ := planJob_ok hplan
    have hvalid := JobRecord.Valid.of_create hcreate
    obtain ⟨-, rfl⟩ := JobRecord.create_eq_ok_iff.1 hcreate
    refine ⟨hvalid, jobId_ne_empty hfresh hid, ?_, JobRecord.pairwise_sortedIds spare⟩
    exact JobRecord.sortedIds_ne_some_nil assigned
  | promoted job selected exhausted n _ ih => exact ih.promote

/-! ## What comes back -/

/-- A record has the members, the policy, the threshold, the worker count and the sets of workers of
another one. -/
structure Restores (job job' : JobRecord) : Prop where
  jobId : job'.jobId = job.jobId
  members : ∀ w, w ∈ job'.workloadIds ↔ w ∈ job.workloadIds
  policy : job'.completionPolicy = job.completionPolicy
  threshold : job'.threshold = job.threshold
  workerCount : job'.requiredWorkerCount = job.requiredWorkerCount
  selected : job'.selectedWorkerIds.map List.toFinset = job.selectedWorkerIds.map List.toFinset
  spare : job'.spareIds.toFinset = job.spareIds.toFinset

/-- The loader turns a split job of one workload into a job of a single machine. -/
def Reshaped (job : JobRecord) : Prop :=
  job.executionShape = .taskSplit ∧ job.workloadIds.toList.length = 1

instance (job : JobRecord) : Decidable (Reshaped job) := inferInstanceAs (Decidable (_ ∧ _))

theorem perm_sortedIds {ids : Option (List String)} (h : ids ≠ some []) :
    Option.Rel List.Perm (JobRecord.sortedIds ids) ids := by
  match ids with
  | none => exact .none
  | some [] => exact absurd rfl h
  | some (a :: l) => exact .some (List.perm_insertionSort _ _)

theorem toFinset_of_rel {a b : Option (List String)} (h : Option.Rel List.Perm a b) :
    a.map List.toFinset = b.map List.toFinset := by
  cases h with
  | none => rfl
  | some hperm => exact congrArg some (List.toFinset_eq_of_perm _ _ hperm)

/-- The stored record in one piece. -/
theorem storedJob_eq (job : JobRecord) : StateStore.storedJob job =
    { job with
      workloadIds := PySet.ofList (job.workloadIds.toList.insertionSort (· ≤ ·))
      selectedWorkerIds := JobRecord.sortedIds job.selectedWorkerIds
      spareWorkerIds := JobRecord.sortedIds job.spareWorkerIds
      executionShape := if Reshaped job then .singleMachine else job.executionShape } := by
  unfold StateStore.storedJob StateStore.restoreShape
  dsimp only
  rw [StateStore.length_stored]
  by_cases h : job.executionShape = .taskSplit ∧ job.workloadIds.toList.length = 1
  · rw [if_pos h, if_pos (show Reshaped job from h)]
  · rw [if_neg h, if_neg (show ¬ Reshaped job from h)]

theorem spareIds_storedJob (h : Listed job) :
    (StateStore.storedJob job).spareIds = job.spareIds := by
  have hspare := h.spare
  unfold JobRecord.spareIds at hspare ⊢
  rw [StateStore.spareWorkerIds_storedJob]
  match hids : job.spareWorkerIds with
  | none => rfl
  | some [] => rfl
  | some (a :: l) =>
    rw [hids] at hspare
    exact hspare.insertionSort_eq

/-- **What comes back of a record.** -/
theorem restores_storedJob (h : Listed job) : Restores job (StateStore.storedJob job) := by
  refine ⟨?_, fun w => ?_, ?_, ?_, ?_, ?_, ?_⟩
  · rw [storedJob_eq]
  · rw [storedJob_eq]
    simp
  · rw [storedJob_eq]
  · rw [storedJob_eq]
  · rw [storedJob_eq]
  · rw [StateStore.selectedWorkerIds_storedJob]
    exact toFinset_of_rel (perm_sortedIds h.selected)
  · rw [spareIds_storedJob h]

/-! ## Runs that look alike -/

theorem promoteSpare_shape (s : State) (f : Frame) :
    (s.promoteSpare f).2.executionShape = f.executionShape := by
  rcases promoteSpare_cases s f with ⟨he, -⟩ | ⟨j, job, sel, -, -, -, -, he⟩ <;> rw [he]

/-- Two sets of workers, or none, with the same members. -/
abbrev SameWorkers : Option (PySet String) → Option (PySet String) → Prop :=
  Option.Rel fun a b => a.toList.Perm b.toList

/-- Two runs that differ in what they read from the record of a job: the order of the selected
workers and the shape. -/
structure Alike (s₁ : State) (f₁ : Frame) (s₂ : State) (f₂ : Frame) : Prop where
  state : s₂ = { s₁ with jobs := s₂.jobs }
  frame : f₂ = { f₁ with executionShape := f₂.executionShape, jobSelectedIds := f₂.jobSelectedIds }
  selected : SameWorkers f₁.jobSelectedIds f₂.jobSelectedIds
  spares : ∀ j, f₁.parentJob = some j →
    (s₁.jobs.get? j).map JobRecord.spareIds = (s₂.jobs.get? j).map JobRecord.spareIds

/-- A promotion depends on the spare workers in order, and on the set of selected workers. -/
theorem maybePromoteSpareWorker_congr {selected selected' : PySet String}
    (exhausted : PySet String) (n : ℕ) (hspare : job'.spareIds = job.spareIds)
    (hsel : selected.toList.Perm selected'.toList) :
    (job.maybePromoteSpareWorker selected exhausted n).1.spareIds =
        (job'.maybePromoteSpareWorker selected' exhausted n).1.spareIds ∧
      (job.maybePromoteSpareWorker selected exhausted n).2.toList.Perm
        (job'.maybePromoteSpareWorker selected' exhausted n).2.toList := by
  have hlen := (hsel.filter (· ∉ exhausted)).length_eq
  rcases job.maybePromoteSpareWorker_cases selected exhausted n with ⟨he, hwhy⟩ |
      ⟨promoted, rest, hlt, hfilter, he⟩ <;>
    rcases job'.maybePromoteSpareWorker_cases selected' exhausted n with ⟨he', hwhy'⟩ |
      ⟨promoted', rest', hlt', hfilter', he'⟩
  · rw [he, he']
    exact ⟨hspare.symm, hsel⟩
  · rcases hwhy with hle | hall
    · omega
    · have hmem : promoted' ∈ job'.spareIds.filter (· ∉ exhausted) := by
        rw [hfilter']
        exact List.mem_cons_self
      rw [hspare] at hmem
      obtain ⟨hin, hnot⟩ := List.mem_filter.1 hmem
      exact absurd (hall promoted' hin) (of_decide_eq_true hnot)
  · rcases hwhy' with hle | hall
    · omega
    · have hmem : promoted ∈ job.spareIds.filter (· ∉ exhausted) := by
        rw [hfilter]
        exact List.mem_cons_self
      rw [← hspare] at hmem
      obtain ⟨hin, hnot⟩ := List.mem_filter.1 hmem
      exact absurd (hall promoted hin) (of_decide_eq_true hnot)
  · rw [hspare, hfilter] at hfilter'
    obtain ⟨rfl, rfl⟩ := List.cons.inj hfilter'
    rw [he, he']
    exact ⟨rfl, hsel.insert promoted⟩

theorem Alike.promoteSpare (h : Alike s₁ f₁ s₂ f₂) :
    Alike (s₁.promoteSpare f₁).1 (s₁.promoteSpare f₁).2 (s₂.promoteSpare f₂).1
      (s₂.promoteSpare f₂).2 := by
  obtain ⟨hstate, hframe, hsel, hspares⟩ := h
  have hparent : f₂.parentJob = f₁.parentJob := by rw [hframe]
  have hex : f₂.exhaustedWorkerIds = f₁.exhaustedWorkerIds := by rw [hframe]
  have hcount : f₂.requiredWorkerCount = f₁.requiredWorkerCount := by rw [hframe]
  rcases promoteSpare_cases s₁ f₁ with ⟨he₁, hwhy₁⟩ | ⟨j, job, sel, hj, hs, hjob, hne, he₁⟩ <;>
    rcases promoteSpare_cases s₂ f₂ with ⟨he₂, hwhy₂⟩ | ⟨j', job', sel', hj', hs', hjob', hne', he₂⟩
  · rw [he₁, he₂]
    exact ⟨hstate, hframe, hsel, hspares⟩
  · -- the first run would promote as well
    exfalso
    rw [hs'] at hsel
    rcases hsel₁ : f₁.jobSelectedIds with _ | sel
    · rw [hsel₁] at hsel
      cases hsel
    · have hsame := hspares j' (hparent ▸ hj')
      rw [hjob'] at hsame
      refine hne' (hex ▸ hwhy₁ j' sel (hparent ▸ hj') hsel₁ fun hnone => ?_)
      rw [hnone] at hsame
      cases hsame
  · exfalso
    rw [hs] at hsel
    rcases hsel₂ : f₂.jobSelectedIds with _ | sel
    · rw [hsel₂] at hsel
      cases hsel
    · have hsame := hspares j hj
      rw [hjob] at hsame
      refine hne (hex ▸ hwhy₂ j sel (hparent ▸ hj) hsel₂ fun hnone => ?_)
      rw [hnone] at hsame
      cases hsame
  · obtain rfl := Option.some.inj (hj.symm.trans (hparent ▸ hj'))
    rw [hs, hs'] at hsel
    have hsame := hspares j hj
    rw [hjob, hjob'] at hsame
    rw [he₁, he₂, hex, hcount]
    cases hsel with
    | some hperm =>
      obtain ⟨hspare, hselected⟩ := maybePromoteSpareWorker_congr f₁.exhaustedWorkerIds
        f₁.requiredWorkerCount (Option.some.inj hsame).symm hperm
      refine ⟨?_, ?_, .some hselected, fun i hi => ?_⟩
      · dsimp only
        rw [hstate]
      · dsimp only
        rw [hframe]
      · obtain rfl := Option.some.inj (hj.symm.trans hi)
        simp only [Dict.get?_set, if_pos, Option.map_some]
        rw [hspare]

theorem Alike.allSelectedExhausted (h : Alike s₁ f₁ s₂ f₂) :
    f₂.allSelectedExhausted = f₁.allSelectedExhausted := by
  have hex : f₂.exhaustedWorkerIds = f₁.exhaustedWorkerIds := by rw [h.frame]
  have hsel := h.selected
  unfold Frame.allSelectedExhausted
  rw [hex]
  generalize f₁.jobSelectedIds = a at hsel
  generalize f₂.jobSelectedIds = b at hsel
  cases hsel with
  | none => rfl
  | @some a b hperm =>
    have hnil : b.toList ≠ [] ↔ a.toList ≠ [] := by
      rw [ne_eq, ne_eq, ← List.length_eq_zero_iff, ← List.length_eq_zero_iff, hperm.length_eq]
    rw [Option.any_some, Option.any_some, hperm.symm.all_eq, decide_eq_decide.2 hnil]

theorem mem_iff_of_sameWorkers {a b : Option (PySet String)} (h : SameWorkers a b) (x : String) :
    (a.all fun ids => decide (x ∈ ids)) = b.all fun ids => decide (x ∈ ids) := by
  cases h with
  | none => rfl
  | some hperm => exact decide_eq_decide.2 hperm.mem_iff

theorem several_iff_of_sameWorkers {a b : Option (PySet String)} (h : SameWorkers a b) :
    (a.any fun ids => decide (1 < ids.toList.length)) =
      b.any fun ids => decide (1 < ids.toList.length) := by
  cases h with
  | none => rfl
  | some hperm => rw [Option.any_some, Option.any_some, hperm.length_eq]

theorem Alike.candidateWorkers (h : Alike s₁ f₁ s₂ f₂) :
    s₂.candidateWorkers f₂ = s₁.candidateWorkers f₁ := by
  have hreg : s₂.registry = s₁.registry := by rw [h.state]
  have hex : f₂.exhaustedWorkerIds = f₁.exhaustedWorkerIds := by rw [h.frame]
  unfold State.candidateWorkers
  rw [hreg, hex]
  refine List.filter_congr fun info _ => ?_
  rw [mem_iff_of_sameWorkers h.selected]

/-- The idle and the busy profiles among the candidates of a run. -/
def idleProfiles (s : State) (f : Frame) : List WorkerResourceProfile :=
  (Placement.buildWorkerProfiles s.attempts (s.candidateWorkers f)).filter
    (·.activeWorkloadCount = 0)

def busyProfiles (s : State) (f : Frame) : List WorkerResourceProfile :=
  (Placement.buildWorkerProfiles s.attempts (s.candidateWorkers f)).filter
    (0 < ·.activeWorkloadCount)

/-- Placement tries the idle workers of the run first. -/
def PrefersIdle (s : State) (f : Frame) : Prop :=
  f.executionShape = .taskSplit ∧ (f.jobSelectedIds.any fun ids => 1 < ids.toList.length) = true ∧
    idleProfiles s f ≠ [] ∧ busyProfiles s f ≠ []

/-- Two runs that look alike and have the same shape, or shapes of which neither makes a difference,
decide alike. -/
theorem Alike.choose (h : Alike s₁ f₁ s₂ f₂)
    (hshape : f₂.executionShape = f₁.executionShape ∨
      (f₁.executionShape ≠ .distributedNative ∧ f₂.executionShape ≠ .distributedNative ∧
        ¬ PrefersIdle s₁ f₁ ∧ ¬ PrefersIdle s₂ f₂)) :
    s₂.choose cfg w f₂ ranking now = s₁.choose cfg w f₁ ranking now := by
  have hcand := h.candidateWorkers
  have hatt : s₂.attempts = s₁.attempts := by rw [h.state]
  have hspec : f₂.spec = f₁.spec := by rw [h.frame]
  have hcount : f₂.requiredWorkerCount = f₁.requiredWorkerCount := by rw [h.frame]
  have hgroup : s₂.groupWorkers w f₁.spec = s₁.groupWorkers w f₁.spec := by
    rw [h.state]
    rfl
  have hseveral := several_iff_of_sameWorkers h.selected
  rcases hshape with hshape | ⟨hne₁, hne₂, hidle₁, hidle₂⟩
  · unfold State.choose
    rw [hcand, hatt, hspec, hcount, hshape, hgroup, hseveral]
  · unfold PrefersIdle idleProfiles busyProfiles at hidle₁ hidle₂
    unfold State.choose
    dsimp only
    rw [if_neg hne₁, if_neg hne₂, if_neg hidle₁, if_neg hidle₂, hcand, hatt, hspec, hgroup]

/-! ## Few selected workers -/

/-- At most one selected worker of the run is not excluded. -/
def FewSelected (f : Frame) : Prop :=
  ∀ selected ∈ f.jobSelectedIds, (selected.toList.filter (· ∉ f.exhaustedWorkerIds)).length ≤ 1

/-- A promotion for a job that needs one worker leaves at most one that is not excluded. -/
theorem FewSelected.promoteSpare (h : FewSelected f) (hcount : f.requiredWorkerCount = 1) :
    FewSelected (s.promoteSpare f).2 ∧ (s.promoteSpare f).2.requiredWorkerCount = 1 := by
  rcases promoteSpare_cases s f with ⟨he, -⟩ | ⟨j, job, sel, -, hsel, -, -, he⟩
  · rw [he]
    exact ⟨h, hcount⟩
  · rw [he]
    refine ⟨fun selected hselected => ?_, hcount⟩
    obtain rfl := Option.some.inj hselected
    rw [hcount]
    dsimp only
    rcases job.maybePromoteSpareWorker_cases sel f.exhaustedWorkerIds 1 with ⟨hp, -⟩ |
      ⟨promoted, rest, hlt, -, hp⟩
    · rw [hp]
      exact h sel hsel
    · rw [hp]
      have hnone : sel.toList.filter (· ∉ f.exhaustedWorkerIds) = [] :=
        List.length_eq_zero_iff.1 (Nat.lt_one_iff.1 hlt)
      show ((List.insert promoted sel.toList).filter (· ∉ f.exhaustedWorkerIds)).length ≤ 1
      by_cases hin : promoted ∈ sel.toList
      · rw [List.insert_of_mem hin, hnone]
        exact Nat.zero_le 1
      · rw [List.insert_of_not_mem hin, List.filter_cons, hnone]
        split_ifs <;> simp

/-- With a single candidate there are not both idle and busy workers. -/
theorem FewSelected.not_prefersIdle (h : FewSelected f) : ¬ PrefersIdle s f := by
  rintro ⟨-, hseveral, hidle, hbusy⟩
  obtain ⟨selected, hselected, -⟩ := (Option.any_eq_true _ _).1 hseveral
  obtain ⟨p, hp⟩ := List.exists_mem_of_ne_nil _ hidle
  obtain ⟨q, hq⟩ := List.exists_mem_of_ne_nil _ hbusy
  obtain ⟨hp, hzero⟩ := List.mem_filter.1 hp
  obtain ⟨hq, hpos⟩ := List.mem_filter.1 hq
  obtain ⟨a, ha, hpa⟩ := List.mem_filterMap.1 hp
  obtain ⟨b, hb, hqb⟩ := List.mem_filterMap.1 hq
  have hmem : ∀ info ∈ s.candidateWorkers f,
      info.workerId ∈ selected.toList.filter (· ∉ f.exhaustedWorkerIds) := by
    intro info hinfo
    have hcond := (List.mem_filter.1 hinfo).2
    rw [hselected] at hcond
    simpa using hcond
  -- both workers have the identifier of the one that is left, and so the same load
  have hsame : a.workerId = b.workerId := by
    have hlen := h selected hselected
    match hlist : selected.toList.filter (· ∉ f.exhaustedWorkerIds) with
    | [] => exact absurd (hmem a ha) (by rw [hlist]; exact List.not_mem_nil)
    | [x] =>
      have ha := hmem a ha
      have hb := hmem b hb
      rw [hlist] at ha hb
      exact (List.mem_singleton.1 ha).trans (List.mem_singleton.1 hb).symm
    | x :: y :: l =>
      rw [hlist] at hlen
      simp at hlen
  obtain ⟨t, -, rfl⟩ := Option.map_eq_some_iff.1 hpa
  obtain ⟨u, -, rfl⟩ := Option.map_eq_some_iff.1 hqb
  rw [decide_eq_true_eq] at hzero hpos
  dsimp only at hzero hpos
  rw [hsame] at hzero
  omega

/-! ## Before and after a restart -/

/-- A restart keeps what is known of a job and how its workloads are placed: the record is saved and
comes back, and placement decides for each member, in each cluster and with each set of excluded
workers, as it does with the record that was written. -/
def RestartKeeps (cfg : Config) (job : JobRecord) : Prop :=
  ∀ createdAt : ℚ, ∃ job', (StateStore.saveJob job createdAt).bind StateStore.loadJob =
      some (job', createdAt) ∧ Restores job job' ∧
    ∀ (s : State) (spec : WorkloadSpec) (exhausted : PySet String) (ranking : Ranking) (now : ℚ),
      spec.workloadId ∈ job.workloadIds → spec.jobId = some job.jobId →
        s.pickFor cfg job' spec exhausted ranking now = s.pickFor cfg job spec exhausted ranking now

/-- The frame with which a run of a workload of a job enters its loop. -/
def jobFrame (s : State) (job : JobRecord) (spec : WorkloadSpec) (exhausted : PySet String) :
    Frame :=
  { spec
    executionShape := job.executionShape
    requiredWorkerCount := job.requiredWorkerCount
    parentJob := some job.jobId
    jobSelectedIds := job.selectedWorkerIds.map PySet.ofList
    exhaustedWorkerIds := exhausted
    attemptsUsed := s.attempts.attemptsUsed spec.workloadId }

theorem pickFor_eq (hid : job.jobId ≠ "") (hspec : spec.jobId = some job.jobId)
    (exhausted : PySet String) : s.pickFor cfg job spec exhausted ranking now =
      State.pick cfg { s with jobs := s.jobs.set job.jobId job } spec.workloadId
        (jobFrame s job spec exhausted) ranking now := by
  have hfilter : spec.jobId.filter (· ≠ "") = some job.jobId := by
    rw [hspec, Option.filter_some, if_pos (decide_eq_true hid)]
  unfold State.pickFor State.initialFrame
  dsimp only
  rw [hfilter, Option.bind_some, Dict.get?_set, if_pos rfl]
  rfl

theorem pick_congr (h : Alike s₁ f₁ s₂ f₂)
    (hshape : f₂.executionShape = f₁.executionShape ∨
      (f₁.executionShape ≠ .distributedNative ∧ f₂.executionShape ≠ .distributedNative ∧
        FewSelected f₁ ∧ FewSelected f₂ ∧ f₁.requiredWorkerCount = 1)) :
    s₂.pick cfg w f₂ ranking now = s₁.pick cfg w f₁ ranking now := by
  unfold State.pick
  dsimp only
  rw [h.promoteSpare.allSelectedExhausted]
  split_ifs with hexhausted
  · rfl
  · refine h.promoteSpare.promoteSpare.choose ?_
    simp only [promoteSpare_shape]
    rcases hshape with hshape | ⟨hne₁, hne₂, hfew₁, hfew₂, hcount⟩
    · exact .inl hshape
    · have hcount₂ : f₂.requiredWorkerCount = 1 := by
        rw [h.frame]
        exact hcount
      obtain ⟨hfew₁, hcount⟩ := hfew₁.promoteSpare (s := s₁) hcount
      obtain ⟨hfew₂, hcount₂⟩ := hfew₂.promoteSpare (s := s₂) hcount₂
      exact .inr ⟨hne₁, hne₂, (hfew₁.promoteSpare hcount).1.not_prefersIdle,
        (hfew₂.promoteSpare hcount₂).1.not_prefersIdle⟩

theorem sameWorkers_of_rel {a b : Option (List String)} (h : Option.Rel List.Perm a b) :
    SameWorkers (b.map PySet.ofList) (a.map PySet.ofList) := by
  cases h with
  | none => exact .none
  | some hperm => exact .some hperm.symm.dedup

theorem alike_storedJob (h : Listed job) (s : State) (spec : WorkloadSpec)
    (exhausted : PySet String) :
    Alike { s with jobs := s.jobs.set job.jobId job } (jobFrame s job spec exhausted)
      { s with jobs := s.jobs.set job.jobId (StateStore.storedJob job) }
      (jobFrame s (StateStore.storedJob job) spec exhausted) := by
  refine ⟨rfl, ?_, ?_, fun j hj => ?_⟩
  · rw [storedJob_eq]
    rfl
  · show SameWorkers _ ((StateStore.storedJob job).selectedWorkerIds.map PySet.ofList)
    rw [StateStore.selectedWorkerIds_storedJob]
    exact sameWorkers_of_rel (perm_sortedIds h.selected)
  · obtain rfl := Option.some.inj hj
    simp only [Dict.get?_set, if_pos, Option.map_some, spareIds_storedJob h]

/-- The job has selected several workers. -/
def SelectsSeveral (job : JobRecord) : Prop := 2 ≤ job.selectedIds.toFinset.card

theorem fewSelected_jobFrame (h : ¬ SelectsSeveral job) (s : State) (spec : WorkloadSpec)
    (exhausted : PySet String) : FewSelected (jobFrame s job spec exhausted) := by
  intro selected hselected
  obtain ⟨ids, hids, rfl⟩ := Option.map_eq_some_iff.1 hselected
  refine (List.length_filter_le _ _).trans ?_
  unfold SelectsSeveral JobRecord.selectedIds at h
  rw [hids, Option.getD_some, List.card_toFinset] at h
  show ids.dedup.length ≤ 1
  omega

/-- The shape of a stored record, unless it is one that makes a difference. -/
theorem shape_storedJob (hvalid : job.Valid) (h : ¬ (Reshaped job ∧ SelectsSeveral job)) :
    (StateStore.storedJob job).executionShape = job.executionShape ∨
      job.executionShape = .taskSplit ∧ (StateStore.storedJob job).executionShape = .singleMachine ∧
        ¬ SelectsSeveral job ∧ job.requiredWorkerCount = 1 := by
  rw [storedJob_eq]
  dsimp only
  split_ifs with hshape
  · right
    have hcount := hvalid.2
    rw [hshape.1, if_neg (by decide)] at hcount
    exact ⟨hshape.1, rfl, fun hseveral => h ⟨hshape, hseveral⟩, hcount.1⟩
  · exact .inl rfl

theorem selectsSeveral_storedJob (h : Listed job) :
    SelectsSeveral (StateStore.storedJob job) ↔ SelectsSeveral job := by
  have hsel := (restores_storedJob h).selected
  unfold SelectsSeveral JobRecord.selectedIds
  rw [← Option.getD_map List.toFinset, ← Option.getD_map List.toFinset, hsel]

/-- Placement does not notice the restart, unless a split job of one workload has selected several
workers. -/
theorem pickFor_storedJob (h : Listed job) (hcond : ¬ (Reshaped job ∧ SelectsSeveral job))
    (hspec : spec.jobId = some job.jobId) (exhausted : PySet String) :
    s.pickFor cfg (StateStore.storedJob job) spec exhausted ranking now =
      s.pickFor cfg job spec exhausted ranking now := by
  have hid : (StateStore.storedJob job).jobId = job.jobId := (restores_storedJob h).jobId
  rw [pickFor_eq h.jobId hspec, pickFor_eq (hid ▸ h.jobId) (hid ▸ hspec), hid]
  refine pick_congr (alike_storedJob h s spec exhausted) ?_
  rcases shape_storedJob h.valid hcond with hshape | ⟨hshape, hstored, hfew, hcount⟩
  · exact .inl hshape
  · refine .inr ⟨?_, ?_, fewSelected_jobFrame hfew s spec exhausted,
      fewSelected_jobFrame (mt (selectsSeveral_storedJob h).1 hfew) s spec exhausted, hcount⟩
    · show job.executionShape ≠ _
      rw [hshape]
      decide
    · show (StateStore.storedJob job).executionShape ≠ _
      rw [hstored]
      decide

/-! ## An idle and a busy worker -/

/-- An attempt that runs on a worker. -/
def runningOn (x : String) : AttemptRecord where
  attemptId := "busy#1"
  workloadId := "busy"
  attemptNumber := 1
  status := .running
  workerId := some x

/-- A cluster of two workers, of which the second one runs an attempt. -/
def busyCluster (a b : String) : State where
  registry.workers := ((∅ : Dict String WorkerInfo).set a (sampleWorker a)).set b (sampleWorker b)
  attempts.attempts := (∅ : Dict String AttemptRecord).set "busy#1" (runningOn b)

/-- A ranking that prefers a worker. -/
def preferring (x : String) : Ranking where
  order := [x]
  details := sampleRanking.details

/-- The profile of a sample worker that runs some attempts. -/
def loadedProfile (x : String) (n : ℕ) : WorkerResourceProfile where
  workerId := x
  endpointUrl := "http://" ++ x ++ ":8000"
  ipAddress := "10.0.0.1"
  cpuCoresTotal := 8
  cpuUtilizationPercent := 0
  ramTotalBytes := 2 ^ 34
  ramAvailableBytes := 2 ^ 34
  timestampUtc := some 0
  activeWorkloadCount := n

variable {a b : String}

/-- The workload that is placed in the cluster. -/
def memberSpec (w j : String) : WorkloadSpec := { sampleSpec w with jobId := some j }

theorem tags_sampleWorker (text : TextFunctions) (x : String) :
    Placement.effectiveWorkerTags text (sampleWorker x) = ∅ := rfl

theorem eligible_loadedProfile {text : TextFunctions} {ctx : PlacementContext} {w j x : String}
    {n : ℕ}
    (hn : n < 10) (htags : (ctx.workerTags.get? x).getD ∅ = ∅) (hnow : ctx.nowUtc = 0) :
    Placement.eligible text ctx (memberSpec w j) (loadedProfile x n) = true := by
  rw [eligible_iff]
  constructor
  · simp only [Placement.gates, List.forall_mem_cons]
    refine ⟨rfl, rfl, rfl, rfl, ?_, ?_, ?_, ?_, ?_, ?_, ?_, ?_, rfl, rfl, rfl, rfl, rfl, rfl, ?_,
      List.forall_mem_nil _⟩
    · simp [Placement.freshTelemetry, loadedProfile, hnow, Placement.STALE_PROFILE_SECONDS]
    · simp [loadedProfile, memberSpec, sampleSpec]
    · simp [loadedProfile, memberSpec, sampleSpec]
    · simp [loadedProfile]
    · rfl
    · simp [loadedProfile, memberSpec, sampleSpec]
    · simp [loadedProfile]
    · exact decide_eq_true hn
    · rfl
  · intro cap _
    rw [show (loadedProfile x n).workerId = x from rfl, htags]
    intro hsome
    cases hsome

theorem profiles_busyCluster (hab : a ≠ b) :
    Placement.buildWorkerProfiles (busyCluster a b).attempts [sampleWorker a, sampleWorker b] =
      [loadedProfile a 0, loadedProfile b 1] := by
  have hvalues : (busyCluster a b).attempts.attempts.values = [runningOn b] := rfl
  have ha : (busyCluster a b).attempts.listRunningAttemptsForWorker a = [] := by
    rw [AttemptRegistry.listRunningAttemptsForWorker, hvalues]
    simp [AttemptRecord.occupies, AttemptRecord.names, runningOn, hab.symm]
  have hb : (busyCluster a b).attempts.listRunningAttemptsForWorker b = [runningOn b] := by
    rw [AttemptRegistry.listRunningAttemptsForWorker, hvalues]
    simp [AttemptRecord.occupies, AttemptRecord.names, runningOn, AttemptStatus.isActive]
  have hprofile : ∀ x n, ((busyCluster a b).attempts.listRunningAttemptsForWorker x).length = n →
      Placement.workerProfile (busyCluster a b).attempts (sampleWorker x) =
        some (loadedProfile x n) := by
    rintro x n rfl
    rfl
  rw [Placement.buildWorkerProfiles, List.filterMap_cons_some (hprofile a 0 (by rw [ha]; rfl)),
    List.filterMap_cons_some (hprofile b 1 (by rw [hb]; rfl)), List.filterMap_nil]

/-- Both workers are candidates of a run that selects them. -/
theorem candidates_busyCluster (hab : a ≠ b) (J : Dict String JobRecord)
    (hsel : ∀ ids ∈ f.jobSelectedIds, a ∈ ids ∧ b ∈ ids) (hex : f.exhaustedWorkerIds = ∅) :
    State.candidateWorkers { busyCluster a b with jobs := J } f =
      [sampleWorker a, sampleWorker b] := by
  have hentries :
      (busyCluster a b).registry.listWorkers false = [sampleWorker a, sampleWorker b] := by
    have hset : (busyCluster a b).registry.workers.entries =
        [(a, sampleWorker a), (b, sampleWorker b)] := by
      show Dict.setEntries b (sampleWorker b) [(a, sampleWorker a)] = _
      simp [Dict.setEntries, hab]
    rw [WorkerRegistry.listWorkers]
    dsimp only
    rw [hset]
    rfl
  unfold State.candidateWorkers
  show ((busyCluster a b).registry.listWorkers false).filter _ = _
  rw [hentries, List.filter_eq_self]
  intro info hinfo
  have hid : info.workerId = a ∨ info.workerId = b := by
    rcases List.mem_pair.1 hinfo with rfl | rfl
    · exact .inl rfl
    · exact .inr rfl
  have hmem : f.jobSelectedIds.all (fun ids => decide (info.workerId ∈ ids)) = true := by
    cases hs : f.jobSelectedIds with
    | none => rfl
    | some ids =>
      obtain ⟨ha, hb⟩ := hsel ids hs
      rcases hid with h | h <;> rw [h]
      · exact decide_eq_true ha
      · exact decide_eq_true hb
  rw [hmem, hex]
  simp

/-- Among eligible workers the ranking decides, if it knows one of them. -/
theorem evaluate_preferring {text : TextFunctions} {ctx : PlacementContext} {x : String}
    {profiles : List WorkerResourceProfile}
    (h : ∀ p ∈ profiles, Placement.eligible text ctx spec p = true) :
    (Placement.evaluate text ctx (preferring x) spec profiles).map (·.selectedWorkerId) =
      ((profiles.find? (·.workerId = x)).or profiles.head?).map (·.workerId) := by
  rw [Placement.evaluate, List.filter_eq_self.2 h, Option.map_map]
  show Option.map _ ((List.findSome? _ [x]).or _) = _
  rw [List.findSome?_cons]
  cases profiles.find? (·.workerId = x) <;> rfl

/-- **The busy worker is picked without a preference for idle ones**, the idle one with it. -/
theorem choose_busyCluster (cfg : Config) (hab : a ≠ b) (J : Dict String JobRecord) {w j : String}
    (hspec : f.spec = memberSpec w j) (hex : f.exhaustedWorkerIds = ∅) {ids : PySet String}
    (hids : f.jobSelectedIds = some ids) (ha : a ∈ ids) (hb : b ∈ ids)
    (hshape : f.executionShape ≠ .distributedNative) :
    ((State.choose cfg { busyCluster a b with jobs := J } w f (preferring b) 0).map
      fun ds => ds.map (·.selectedWorkerId)) =
        some [if f.executionShape = .taskSplit then a else b] := by
  have hcand := candidates_busyCluster hab J (f := f)
    (fun i hi => Option.some.inj (hids.symm.trans hi) ▸ ⟨ha, hb⟩) hex
  have hprofiles := profiles_busyCluster hab
  have hseveral : 1 < ids.toList.length := by
    have hnodup : [a, b].Nodup := by simpa using hab
    have hsub : [a, b] ⊆ ids.toList := by
      intro x hx
      rcases List.mem_pair.1 hx with rfl | rfl
      · exact ha
      · exact hb
    exact (hnodup.subperm hsub).length_le
  have htags :
    ∀ x, ((([sampleWorker a, sampleWorker b].foldl (fun tags info => tags.set info.workerId
      (Placement.effectiveWorkerTags cfg.text info)) (∅ : Dict String (Dict String String))).get?
        x).getD ∅) = ∅ := by
    intro x
    rw [List.foldl_cons, List.foldl_cons, List.foldl_nil, tags_sampleWorker, tags_sampleWorker,
      Dict.get?_set, Dict.get?_set]
    split_ifs <;> rfl
  unfold State.choose
  dsimp only
  rw [if_neg hshape, hcand, hprofiles, hids, hspec]
  generalize hctx : ({ workerTags := _, groupWorkers := _, nowUtc := _ } : PlacementContext) = ctx
  have heligible : ∀ x, ∀ n < 10,
      Placement.eligible cfg.text ctx (memberSpec w j) (loadedProfile x n) = true := by
    intro x n hn
    refine eligible_loadedProfile hn ?_ ?_
    · rw [← hctx]
      exact htags x
    · rw [← hctx]
  have hall := @evaluate_preferring (memberSpec w j) cfg.text ctx b
    [loadedProfile a 0, loadedProfile b 1] (by
      intro p hp
      rcases List.mem_pair.1 hp with rfl | rfl
      · exact heligible a 0 (by omega)
      · exact heligible b 1 (by omega))
  have hidle := @evaluate_preferring (memberSpec w j) cfg.text ctx b [loadedProfile a 0] (by
      intro p hp
      obtain rfl := List.mem_singleton.1 hp
      exact heligible a 0 (by omega))
  have hfind : [loadedProfile a 0, loadedProfile b 1].find? (·.workerId = b) =
      some (loadedProfile b 1) := by
    rw [List.find?_cons_of_neg (by simp [loadedProfile, hab]),
      List.find?_cons_of_pos (by simp [loadedProfile])]
  have hfindIdle : [loadedProfile a 0].find? (·.workerId = b) = none := by
    rw [List.find?_cons_of_neg (by simp [loadedProfile, hab]), List.find?_nil]
  rw [hfind] at hall
  rw [hfindIdle] at hidle
  obtain ⟨d, hd, hda⟩ := Option.map_eq_some_iff.1 hidle
  obtain ⟨e, he, heb⟩ := Option.map_eq_some_iff.1 hall
  by_cases htask : f.executionShape = .taskSplit
  · have hprefer : f.executionShape = .taskSplit ∧
        (Option.any (fun ids => decide (1 < ids.toList.length)) (some ids)) = true ∧
        [loadedProfile a 0, loadedProfile b 1].filter (·.activeWorkloadCount = 0) ≠ [] ∧
        [loadedProfile a 0, loadedProfile b 1].filter (0 < ·.activeWorkloadCount) ≠ [] :=
      ⟨htask, decide_eq_true hseveral, List.cons_ne_nil (loadedProfile a 0) [],
        List.cons_ne_nil (loadedProfile b 1) []⟩
    rw [if_pos hprefer, if_pos htask]
    show Option.map _ (Option.map _ ((Placement.evaluate cfg.text ctx (preferring b)
      (memberSpec w j)
      [loadedProfile a 0]).or _)) = _
    rw [hd]
    exact congrArg (fun x => some [x]) hda
  · rw [if_neg (fun hprefer => htask hprefer.1), if_neg htask, Option.none_or, he]
    exact congrArg (fun x => some [x]) heb

theorem pick_of_none_excluded (hex : f.exhaustedWorkerIds = ∅) :
    s.pick cfg w f ranking now = s.choose cfg w f ranking now := by
  have hsame : s.promoteSpare f = (s, f) := by
    rcases promoteSpare_cases s f with ⟨he, -⟩ | ⟨j, job, sel, -, -, -, hne, -⟩
    · exact he
    · exact absurd hex hne
  have hleft : f.allSelectedExhausted = false := by
    unfold Frame.allSelectedExhausted
    rw [hex]
    cases f.jobSelectedIds with
    | none => rfl
    | some ids =>
      cases hids : ids.toList with
      | nil => simp [hids]
      | cons x l => simp [hids]
  unfold State.pick
  dsimp only
  rw [hsame]
  dsimp only
  rw [hleft, hsame]
  rfl

theorem pickFor_busyCluster (cfg : Config) (hab : a ≠ b) (hid : job.jobId ≠ "")
    (ha : a ∈ job.selectedIds) (hb : b ∈ job.selectedIds)
    (hshape : job.executionShape ≠ .distributedNative) (w : String) :
    ((busyCluster a b).pickFor cfg job (memberSpec w job.jobId) ∅ (preferring b) 0).map
      (fun ds => ds.map (·.selectedWorkerId)) =
        some [if job.executionShape = .taskSplit then a else b] := by
  have hsel : job.selectedWorkerIds.map PySet.ofList = some (PySet.ofList job.selectedIds) := by
    rw [JobRecord.selectedWorkerIds_eq (List.ne_nil_of_mem ha), Option.map_some]
  rw [pickFor_eq hid rfl, pick_of_none_excluded rfl]
  exact choose_busyCluster cfg hab _ rfl rfl hsel (PySet.mem_ofList.2 ha) (PySet.mem_ofList.2 hb)
    hshape

theorem bind_saveJob {createdAt : ℚ} (hvalid : job.Valid) :
    (StateStore.saveJob job createdAt).bind StateStore.loadJob =
      if job.threshold.all StateStore.fitsInt64 then some (StateStore.storedJob job, createdAt)
      else none := by
  unfold StateStore.saveJob
  split_ifs
  · exact StateStore.loadJob_jobRow hvalid
  · rfl

/-- **A restart keeps how the workloads of a job are placed exactly when** its threshold can be
saved and it is not a split job of one workload that has selected several workers. -/
theorem restart_keeps_placement_iff (cfg : Config) (h : Reachable job) : RestartKeeps cfg job ↔
    job.threshold.all StateStore.fitsInt64 = true ∧ ¬ (Reshaped job ∧ SelectsSeveral job) := by
  constructor
  · intro hkeeps
    obtain ⟨job', hload, -, hpick⟩ := hkeeps 0
    rw [bind_saveJob h.listed.valid] at hload
    split_ifs at hload with hfits
    refine ⟨hfits, fun ⟨hshape, hseveral⟩ => ?_⟩
    obtain ⟨rfl, -⟩ := Prod.mk.inj (Option.some.inj hload)
    obtain ⟨a, ha, b, hb, hab⟩ := Finset.one_lt_card.1 hseveral
    obtain ⟨w, hw⟩ := List.length_eq_one_iff.1 hshape.2
    have hmem : w ∈ job.workloadIds := by
      show w ∈ job.workloadIds.toList
      rw [hw]
      exact List.mem_singleton_self w
    have hrestores := restores_storedJob h.listed
    have hselected :
        (StateStore.storedJob job).selectedIds.toFinset = job.selectedIds.toFinset := by
      have hsel := hrestores.selected
      unfold JobRecord.selectedIds
      rw [← Option.getD_map List.toFinset, ← Option.getD_map List.toFinset, hsel]
    have hstored : (StateStore.storedJob job).executionShape = .singleMachine := by
      rw [storedJob_eq]
      exact if_pos hshape
    have hbefore := pickFor_busyCluster cfg hab h.listed.jobId (List.mem_toFinset.1 ha)
      (List.mem_toFinset.1 hb) (by rw [hshape.1]; decide) w
    have hafter := pickFor_busyCluster cfg hab (hrestores.jobId ▸ h.listed.jobId)
      (List.mem_toFinset.1 (hselected ▸ ha)) (List.mem_toFinset.1 (hselected ▸ hb))
      (by rw [hstored]; decide) w
    rw [hrestores.jobId,
      hpick (busyCluster a b) (memberSpec w job.jobId) ∅ (preferring b) 0 hmem rfl,
      hbefore, hshape.1, hstored] at hafter
    exact hab (List.head_eq_of_cons_eq (Option.some.inj hafter))
  · rintro ⟨hfits, hcond⟩ createdAt
    refine ⟨StateStore.storedJob job, (bind_saveJob h.listed.valid).trans (if_pos hfits),
      restores_storedJob h.listed, fun s spec exhausted ranking now _ hspec => ?_⟩
    exact pickFor_storedJob h.listed hcond hspec exhausted

/-- A job of one workload that is split over two workers, with two eligible workers. -/
def splitCall : SubmitCall :=
  { sampleCall "j" [sampleSpec "w"] with
    executionShape := some .taskSplit
    workerCount := some 2 }

/-- A cluster of some workers. -/
def sampleCluster (workers : List String) : State where
  registry := WorkerRegistry.run (sampleConfig 1).registry
    (workers.map fun x => .registerWorker (sampleWorker x) 0)

theorem eq_ok_of_toOption {e : Except SubmitError JobRecord} (h : e.toOption = some job) :
    e = .ok job := by
  cases e with
  | error e => cases h
  | ok job' => exact congrArg _ (Option.some.inj h)

/-- The job of one workload that is not given a shape is placed as before. -/
theorem restart_keeps_placement_single :
    ∃ job, Reachable job ∧ job.executionShape = .singleMachine ∧ job.selectedIds = ["a"] ∧
      (RestartKeeps (sampleConfig 1) job ↔ job.threshold.all StateStore.fitsInt64 = true ∧
        ¬ (Reshaped job ∧ SelectsSeveral job)) := by
  have hplan : (planJob (sampleConfig 1) sampleSizer (sampleCluster ["a", "b"])
      { sampleCall "j" [sampleSpec "w"] with workerCount := some 1 } "j").toOption.any (fun job =>
        job.executionShape = .singleMachine ∧ job.selectedIds = ["a"]) = true := by
    decide +kernel
  obtain ⟨job, hjob, hfacts⟩ := (Option.any_eq_true _ _).1 hplan
  obtain ⟨hshape, hselected⟩ := of_decide_eq_true hfacts
  have hreach : Reachable job := by
    refine .submitted (sampleConfig 1) sampleSizer (sampleCluster ["a", "b"])
      { sampleCall "j" [sampleSpec "w"] with workerCount := some 1 } "j" job (by decide) rfl ?_
    exact eq_ok_of_toOption hjob
  exact ⟨job, hreach, hshape, hselected, restart_keeps_placement_iff (sampleConfig 1) hreach⟩

/-- A split job of one workload is placed on the idle one of its two workers, and after a restart on
the busy one. -/
theorem split_job_restored_as_single :
    ¬ ∀ job, Reachable job → RestartKeeps (sampleConfig 1) job := by
  intro hclaim
  have hplan : (planJob (sampleConfig 1) sampleSizer (sampleCluster ["a", "b"]) splitCall
      "j").toOption.any (fun job => ((busyCluster "a" "b").pickFor (sampleConfig 1)
          (StateStore.storedJob job) (memberSpec "w" "j") ∅ (preferring "b") 0 ≠
        (busyCluster "a" "b").pickFor (sampleConfig 1) job (memberSpec "w" "j") ∅ (preferring "b")
          0) ∧
        "w" ∈ job.workloadIds ∧ job.jobId = "j") = true := by
    decide +kernel
  obtain ⟨job, hjob, hfacts⟩ := (Option.any_eq_true _ _).1 hplan
  obtain ⟨hne, hmem, hid⟩ := of_decide_eq_true hfacts
  have hreach : Reachable job := by
    refine .submitted (sampleConfig 1) sampleSizer (sampleCluster ["a", "b"]) splitCall "j" job
      (by decide) rfl ?_
    exact eq_ok_of_toOption hjob
  obtain ⟨job', hload, -, hpick⟩ := hclaim job hreach 0
  rw [bind_saveJob hreach.listed.valid] at hload
  split_ifs at hload
  obtain ⟨rfl, -⟩ := Prod.mk.inj (Option.some.inj hload)
  exact hne (hpick (busyCluster "a" "b") (memberSpec "w" "j") ∅ (preferring "b") 0 hmem
    (congrArg some hid.symm))

end Aidars.Orchestrator
