import Aidars.Artifact.Basic
import Aidars.Foundations.Run
import Aidars.Models.Aggregate
import Mathlib.Tactic.Linarith

/-!
# Garbage collection of artifacts

A pass of the collection loop removes the deleted artifacts, marks the eligible ones as deleted, and
marks the available ones whose job is not protected as eligible. Protected are the registered jobs
that are not terminal or that were created too recently. A job that is not registered protects
nothing.

`gc_safe_iff` says that collection is safe in a run exactly when every pass finds the jobs of all
available artifacts registered.
-/

namespace Aidars.ArtifactCollection

open ArtifactRegistry

/-- A job with the time of its creation. -/
structure JobEntry where
  record : JobRecord
  createdAt : ℚ
  deriving DecidableEq

/-- What the loop reads and writes, and the time of the last action. -/
structure State where
  artifacts : ArtifactRegistry := {}
  jobs : Dict String JobEntry := ∅
  workloads : Dict String WorkloadRecord := ∅
  clock : ℚ := 0

/-- Create a job; one that exists already is left alone, and a record that is rejected is not
stored. -/
def createJob (s : State) (job : JobRecord) (now : ℚ) : State :=
  if (s.jobs.get? job.jobId).isSome then s
  else match job.create with
    | .ok record => { s with jobs := s.jobs.set job.jobId { record, createdAt := now } }
    | .error _ => s

variable (retention : ℚ)

/-- The job protects its artifacts. -/
def protects (s : State) (now : ℚ) (job : JobEntry) : Bool :=
  match JobRegistry.getAggregate s.workloads (s.jobs.mapValues fun _ j => j.record)
      job.record.jobId with
  | some agg => !agg.isTerminal || (0 < retention && now - job.createdAt < retention)
  | none => false

/-- The jobs that protect their artifacts. -/
def protectedJobIds (s : State) (now : ℚ) : List String :=
  (s.jobs.values.filter (protects retention s now)).map (·.record.jobId)

/-- A pass of the collection loop. -/
def gcPass (s : State) (now : ℚ) : State :=
  let reg := (s.artifacts.purgeDeletedArtifacts (s.artifacts.idsIn .deleted)).1
  let reg := (reg.idsIn .gcEligible).foldl (fun reg id => (reg.markDeleted id).1) reg
  let newlyEligible := reg.computeGcEligible (protectedJobIds retention s now)
  { s with artifacts := (reg.markGcEligible newlyEligible).1 }

/-- What happens to artifacts, jobs and workloads, with clock readings. -/
inductive Action
  | recordArtifacts (out : Outputs) (now : ℚ)
  | createJob (job : JobRecord) (now : ℚ)
  | updateWorkload (workloadId : String) (record : WorkloadRecord) (now : ℚ)
  | gcPass (now : ℚ)

/-- The clock reading of an action. -/
def Action.time : Action → ℚ
  | recordArtifacts _ now | createJob _ now | updateWorkload _ _ now | gcPass now => now

/-- The effect of an action. -/
def effect (s : State) : Action → State
  | .recordArtifacts out now => { s with artifacts := (s.artifacts.recordArtifacts out now).1 }
  | .createJob job now => createJob s job now
  | .updateWorkload workloadId record _ => { s with workloads := s.workloads.set workloadId record }
  | .gcPass now => gcPass retention s now

/-- A step at a time that is not before the last one. -/
def step (s : State) (a : Action) : Option State :=
  if a.time < s.clock then none else some { effect retention s a with clock := a.time }

/-! ## Safety -/

/-- The job is registered and terminal, and its artifacts need not be kept any longer. -/
def JobDone (s : State) (now : ℚ) (j : String) : Prop :=
  ∃ job, s.jobs.get? j = some job ∧
    (JobRegistry.aggregateOf s.workloads job.record).isTerminal = true ∧
    retention ≤ now - job.createdAt

/-- What is asked of a step. -/
structure StepSafe (s s' : State) : Prop where
  /-- An artifact becomes eligible and then deleted, and nothing else of it changes. -/
  order : ∀ k x x', s.artifacts.artifacts.get? k = some x →
    s'.artifacts.artifacts.get? k = some x' → x' = x ∨
      x.lifecycleState = .available ∧ x' = { x with lifecycleState := .gcEligible } ∨
      x.lifecycleState = .gcEligible ∧ x' = { x with lifecycleState := .deleted }
  /-- An artifact that is gone was deleted. -/
  purged : ∀ k x, s.artifacts.artifacts.get? k = some x →
    s'.artifacts.artifacts.get? k = none → x.lifecycleState = .deleted
  /-- A new artifact is available. -/
  recorded : ∀ k x', s.artifacts.artifacts.get? k = none →
    s'.artifacts.artifacts.get? k = some x' → x'.lifecycleState = .available
  /-- An artifact becomes eligible only when its job is done. -/
  marked : ∀ k x x' j, s.artifacts.artifacts.get? k = some x →
    s'.artifacts.artifacts.get? k = some x' → x.lifecycleState = .available →
    x'.lifecycleState = .gcEligible → x.producerJobId = some j → j ≠ "" →
    JobDone retention s s'.clock j
  /-- The index lists exactly the artifacts that are there. -/
  indexed : InvertedIndex.Indexes s'.artifacts.byHash (Holds s'.artifacts)

/-- Collection is safe in all steps. -/
def GcSafe (as : List Action) : Prop :=
  Along (step retention) (fun s a => ∀ s', step retention s a = some s' → StepSafe retention s s')
    {} as

/-- A pass finds the jobs of all available artifacts registered. -/
def JobsKnown (s : State) : Action → Prop
  | .gcPass _ => ∀ k x j, s.artifacts.artifacts.get? k = some x → x.lifecycleState = .available →
    x.producerJobId = some j → j ≠ "" → (s.jobs.get? j).isSome = true
  | _ => True

/-! ## What a pass does -/

variable {retention} {s s' : State} {a : Action} {now : ℚ} {k j : String}

/-- The registries are consistent, and no job was created in the future. -/
structure StateInv (s : State) : Prop where
  registry : RegistryInv s.artifacts
  keyed : ∀ j job, s.jobs.get? j = some job → job.record.jobId = j
  created : ∀ j job, s.jobs.get? j = some job → job.createdAt ≤ s.clock

theorem StateInv.init : StateInv {} where
  registry := .init
  keyed _ _ h := nomatch h
  created _ _ h := nomatch h

/-- The jobs that are protected. -/
theorem mem_protectedJobIds (hs : StateInv s) : j ∈ protectedJobIds retention s now ↔
    ∃ job, s.jobs.get? j = some job ∧
      ((JobRegistry.aggregateOf s.workloads job.record).isTerminal = false ∨
        0 < retention ∧ now - job.createdAt < retention) := by
  have hprotects : ∀ j job, s.jobs.get? j = some job → (protects retention s now job = true ↔
      (JobRegistry.aggregateOf s.workloads job.record).isTerminal = false ∨
        0 < retention ∧ now - job.createdAt < retention) := by
    intro j job hj
    unfold protects JobRegistry.getAggregate
    rw [Dict.get?_mapValues, hs.keyed j job hj, hj]
    simp
  unfold protectedJobIds
  rw [List.mem_map]
  constructor
  · rintro ⟨job, hjob, rfl⟩
    obtain ⟨hmem, hp⟩ := List.mem_filter.1 hjob
    obtain ⟨j, hj⟩ := Dict.mem_values.1 hmem
    exact ⟨job, (hs.keyed j job hj).symm ▸ hj, (hprotects j job hj).1 hp⟩
  · rintro ⟨job, hj, hp⟩
    exact ⟨job, List.mem_filter.2 ⟨Dict.mem_values.2 ⟨j, hj⟩, (hprotects j job hj).2 hp⟩,
      hs.keyed j job hj⟩

/-- **A registered job is done when it is not protected.** -/
theorem notMem_protectedJobIds_iff (hs : StateInv s) (hnow : s.clock ≤ now)
    (hj : (s.jobs.get? j).isSome = true) :
    j ∉ protectedJobIds retention s now ↔ JobDone retention s now j := by
  obtain ⟨job, hjob⟩ := Option.isSome_iff_exists.1 hj
  have hcreated := hs.created j job hjob
  rw [mem_protectedJobIds hs]
  unfold JobDone
  rw [hjob]
  simp only [Option.some.injEq, exists_eq_left', not_or, not_and, not_lt, Bool.not_eq_false]
  refine and_congr_right fun _ => ⟨fun h => ?_, fun h _ => h⟩
  rcases lt_or_ge 0 retention with hpos | hneg
  · exact h hpos
  · linarith

/-- An artifact after a pass. -/
def collect (protectedJobIds : List String) (x : Artifact) : Option Artifact :=
  match x.lifecycleState with
  | .deleted => none
  | .gcEligible => some { x with lifecycleState := .deleted }
  | .available =>
    if unprotected protectedJobIds x then some { x with lifecycleState := .gcEligible } else some x
  | .created => some x

/-- **What a pass does to an artifact.** -/
theorem gcPass_spec (retention : ℚ) (hs : StateInv s) (now : ℚ) :
    RegistryInv (gcPass retention s now).artifacts ∧
      ∀ k, (gcPass retention s now).artifacts.artifacts.get? k =
        (s.artifacts.artifacts.get? k).bind (collect (protectedJobIds retention s now)) := by
  obtain ⟨reg₁, hreg₁⟩ : ∃ reg, reg =
      (s.artifacts.purgeDeletedArtifacts (s.artifacts.idsIn .deleted)).1 := ⟨_, rfl⟩
  obtain ⟨reg₂, hreg₂⟩ : ∃ reg, reg =
      (reg₁.idsIn .gcEligible).foldl (fun reg id => (reg.markDeleted id).1) reg₁ := ⟨_, rfl⟩
  have hpass : (gcPass retention s now).artifacts =
      (reg₂.markGcEligible (reg₂.computeGcEligible (protectedJobIds retention s now))).1 := by
    rw [hreg₂, hreg₁]
    rfl
  obtain ⟨hinv₁, hview₁⟩ := purgeDeletedArtifacts_spec hs.registry (s.artifacts.idsIn .deleted)
  rw [← hreg₁] at hinv₁ hview₁
  obtain ⟨hinv₂, hview₂⟩ := foldl_markDeleted_spec hinv₁ (reg₁.idsIn .gcEligible)
  rw [← hreg₂] at hinv₂ hview₂
  obtain ⟨hinv₃, hview₃⟩ := markGcEligible_spec hinv₂
    (reg₂.computeGcEligible (protectedJobIds retention s now))
  rw [← hpass] at hinv₃ hview₃
  refine ⟨hinv₃, fun k => ?_⟩
  -- the three loops visit exactly the artifacts that they move
  have h₁ : reg₁.artifacts.get? k = (s.artifacts.artifacts.get? k).filter
      (·.lifecycleState ≠ .deleted) := by
    rw [hview₁]
    cases hk : s.artifacts.artifacts.get? k with
    | none => rfl
    | some x =>
      unfold Option.filter
      have hmem : k ∈ s.artifacts.idsIn .deleted ↔ x.lifecycleState = .deleted := by
        unfold idsIn
        rw [hs.registry.mem_filter_map]
        simp [hk]
      by_cases hx : x.lifecycleState = .deleted <;> simp [hmem, hx]
  have h₂ : reg₂.artifacts.get? k = (reg₁.artifacts.get? k).map (Moved .gcEligible .deleted) := by
    rw [hview₂]
    split_ifs with hmem
    · rfl
    · cases hk : reg₁.artifacts.get? k with
      | none => rfl
      | some x =>
        have hx : x.lifecycleState ≠ .gcEligible := fun hx =>
          hmem (hinv₁.mem_filter_map.2 ⟨x, hk, decide_eq_true hx⟩)
        rw [Option.map_some, Moved, if_neg hx]
  have h₃ : (gcPass retention s now).artifacts.artifacts.get? k =
      (reg₂.artifacts.get? k).map fun x =>
        if unprotected (protectedJobIds retention s now) x then Moved .available .gcEligible x
        else x := by
    rw [hview₃]
    cases hk : reg₂.artifacts.get? k with
    | none => simp
    | some x =>
      have hmem : k ∈ reg₂.computeGcEligible (protectedJobIds retention s now) ↔
          x.lifecycleState = .available ∧
            unprotected (protectedJobIds retention s now) x = true := by
        unfold computeGcEligible
        rw [hinv₂.mem_filter_map]
        simp [hk]
      rw [Option.map_some, Option.map_some]
      unfold Moved
      by_cases hx : x.lifecycleState = .available
      · by_cases hu : unprotected (protectedJobIds retention s now) x = true <;>
          simp [hmem, hx, hu]
      · simp [hmem, hx]
  rw [h₃, h₂, h₁]
  cases s.artifacts.artifacts.get? k with
  | none => rfl
  | some x =>
    cases hst : x.lifecycleState with
    | created => simp [Option.filter, Moved, collect, hst]
    | available =>
      by_cases hu : unprotected (protectedJobIds retention s now) x = true <;>
        simp [Option.filter, Moved, collect, hst, hu]
    | gcEligible => simp [Option.filter, Moved, collect, hst]
    | deleted => simp [Option.filter, collect, hst]

/-! ## Steps -/

theorem stateInv_createJob (hs : StateInv s) (job : JobRecord) (hnow : s.clock ≤ now) :
    StateInv { createJob s job now with clock := now } := by
  have hlater : StateInv { s with clock := now } :=
    ⟨hs.registry, hs.keyed, fun j job hj => (hs.created j job hj).trans hnow⟩
  unfold createJob
  split_ifs
  · exact hlater
  · split
    · rename_i record hrecord
      obtain ⟨-, rfl⟩ := JobRecord.create_eq_ok_iff.1 hrecord
      refine ⟨hs.registry, fun j entry hj => ?_, fun j entry hj => ?_⟩
      all_goals
        dsimp only at hj
        rw [Dict.get?_set] at hj
        split_ifs at hj with hid
      · rw [← Option.some.inj hj, hid]
      · exact hs.keyed j entry hj
      · rw [← Option.some.inj hj]
      · exact hlater.created j entry hj
    · exact hlater

theorem artifacts_createJob (s : State) (job : JobRecord) (now : ℚ) :
    (createJob s job now).artifacts = s.artifacts := by
  unfold createJob
  split_ifs
  · rfl
  · split <;> rfl

theorem stateInv_step (hs : StateInv s) (h : step retention s a = some s') : StateInv s' := by
  unfold step at h
  split_ifs at h with htime
  obtain rfl := Option.some.inj h
  have hnow := not_lt.1 htime
  cases a with
  | recordArtifacts out now =>
    exact ⟨(recordArtifacts_spec hs.registry out now).1, hs.keyed,
      fun j job hj => (hs.created j job hj).trans hnow⟩
  | createJob job now => exact stateInv_createJob hs job hnow
  | updateWorkload workloadId record now =>
    exact ⟨hs.registry, hs.keyed, fun j job hj => (hs.created j job hj).trans hnow⟩
  | gcPass now =>
    exact ⟨(gcPass_spec retention hs now).1, hs.keyed,
      fun j job hj => (hs.created j job hj).trans hnow⟩

theorem StepSafe.of_same (hs : StateInv s') (h : s'.artifacts = s.artifacts) :
    StepSafe retention s s' where
  order k x x' hx hx' := by
    rw [h, hx] at hx'
    exact .inl (Option.some.inj hx').symm
  purged k x hx hx' := by
    rw [h, hx] at hx'
    cases hx'
  recorded k x' hx hx' := by
    rw [h, hx] at hx'
    cases hx'
  marked k x x' j hx hx' hst hst' := by
    rw [h, hx] at hx'
    rw [← Option.some.inj hx', hst] at hst'
    cases hst'
  indexed := hs.registry.indexes

theorem stepSafe_recordArtifacts (hs : StateInv s) {out : Outputs} (hs' : StateInv s')
    (h : s'.artifacts = (s.artifacts.recordArtifacts out now).1) : StepSafe retention s s' := by
  have hview := (recordArtifacts_spec hs.registry out now).2
  rw [← h] at hview
  have hold : ∀ k x, s.artifacts.artifacts.get? k = some x →
      s'.artifacts.artifacts.get? k = some x := by
    intro k x hx
    rcases hview k with hsame | ⟨hnone, -⟩
    · exact hsame.trans hx
    · exact absurd (hx.symm.trans hnone) (Option.some_ne_none x)
  refine ⟨fun k x x' hx hx' => ?_, fun k x hx hx' => ?_, fun k x' hx hx' => ?_,
    fun k x x' j hx hx' hst hst' => ?_, hs'.registry.indexes⟩
  · exact .inl (Option.some.inj (hx'.symm.trans (hold k x hx)))
  · exact absurd ((hold k x hx).symm.trans hx') (Option.some_ne_none x)
  · rcases hview k with hsame | ⟨-, hash, -, hnew⟩
    · exact absurd (hx'.symm.trans (hsame.trans hx)) (Option.some_ne_none x')
    · rw [Option.some.inj (hx'.symm.trans hnew)]
      rfl
  · rw [Option.some.inj (hx'.symm.trans (hold k x hx)), hst] at hst'
    cases hst'

theorem collect_some {ids : List String} {x x' : Artifact} (h : collect ids x = some x') :
    (x' = x ∨ x.lifecycleState = .available ∧ x' = { x with lifecycleState := .gcEligible } ∨
      x.lifecycleState = .gcEligible ∧ x' = { x with lifecycleState := .deleted }) ∧
    (x.lifecycleState = .available → (x'.lifecycleState = .gcEligible ↔
      unprotected ids x = true)) := by
  obtain ⟨artifactId, contentHash, workload, job, createdAt, verification, lifecycle, loc,
    size⟩ := x
  cases lifecycle with
  | created =>
    obtain rfl := Option.some.inj h
    exact ⟨.inl rfl, nofun⟩
  | available =>
    unfold collect at h
    dsimp only at h
    split_ifs at h with hu
    · obtain rfl := Option.some.inj h
      exact ⟨.inr (.inl ⟨rfl, rfl⟩), fun _ => iff_of_true rfl hu⟩
    · obtain rfl := Option.some.inj h
      exact ⟨.inl rfl, fun _ => iff_of_false nofun hu⟩
  | gcEligible =>
    obtain rfl := Option.some.inj h
    exact ⟨.inr (.inr ⟨rfl, rfl⟩), nofun⟩
  | deleted => cases h

theorem collect_none {ids : List String} {x : Artifact} (h : collect ids x = none) :
    x.lifecycleState = .deleted := by
  unfold collect at h
  split at h
  · assumption
  · cases h
  · split_ifs at h
  · cases h

/-- **A pass is safe exactly when the jobs of all available artifacts are registered.** -/
theorem stepSafe_gcPass_iff (hs : StateInv s) (hnow : s.clock ≤ now) :
    StepSafe retention s { gcPass retention s now with clock := now } ↔
      JobsKnown s (.gcPass now) := by
  obtain ⟨hinv, hview⟩ := gcPass_spec retention hs now
  constructor
  · intro hsafe k x j hx hst hj hne
    by_contra hunknown
    have hnone : s.jobs.get? j = none := Option.not_isSome_iff_eq_none.1 hunknown
    -- a job that is not registered is not protected, so the artifact is marked
    have hnot : j ∉ protectedJobIds retention s now := by
      rw [mem_protectedJobIds hs, hnone]
      rintro ⟨job, hjob, -⟩
      cases hjob
    have hcollect : collect (protectedJobIds retention s now) x =
        some { x with lifecycleState := .gcEligible } := by
      have hu : unprotected (protectedJobIds retention s now) x = true := by
        unfold unprotected
        rw [hj, Option.any_some]
        exact decide_eq_true hnot
      unfold collect
      rw [hst]
      exact if_pos hu
    have hx' := hview k
    rw [hx, Option.bind_some, hcollect] at hx'
    obtain ⟨job, hjob, -⟩ := hsafe.marked k x _ j hx hx' hst rfl hj hne
    rw [hnone] at hjob
    cases hjob
  · intro hknown
    refine ⟨fun k x x' hx hx' => ?_, fun k x hx hx' => ?_, fun k x' hx hx' => ?_,
      fun k x x' j hx hx' hst hst' hj hne => ?_, hinv.indexes⟩
    all_goals
      dsimp only at hx'
      rw [hview, hx] at hx'
    · exact (collect_some hx').1
    · exact collect_none hx'
    · cases hx'
    · have hu := ((collect_some hx').2 hst).1 hst'
      unfold unprotected at hu
      rw [hj, Option.any_some, decide_eq_true_iff] at hu
      exact (notMem_protectedJobIds_iff hs hnow (hknown k x j hx hst hj hne)).1 hu

/-- **Collection is safe in a run exactly when** every pass finds the jobs of all available
artifacts registered. -/
theorem gc_safe_iff (retention : ℚ) (as : List Action) :
    GcSafe retention as ↔ Along (step retention) JobsKnown {} as := by
  refine along_iff (fun s a s' hs h => ?_) (fun s a s' hs _ h => stateInv_step hs h) StateInv.init
  have hs' := stateInv_step hs h
  have hiff : (∀ s₁, step retention s a = some s₁ → StepSafe retention s s₁) ↔
      StepSafe retention s s' := by
    constructor
    · exact fun hall => hall s' h
    · intro hone s₁ h₁
      rwa [← Option.some.inj (h.symm.trans h₁)]
  rw [hiff]
  unfold step at h
  split_ifs at h with htime
  obtain rfl := Option.some.inj h
  cases a with
  | recordArtifacts out now =>
    exact iff_of_true (stepSafe_recordArtifacts hs hs' rfl) trivial
  | createJob job now =>
    exact iff_of_true (.of_same hs' (artifacts_createJob s job now)) trivial
  | updateWorkload workloadId record now => exact iff_of_true (.of_same hs' rfl) trivial
  | gcPass now => exact stepSafe_gcPass_iff hs (not_lt.1 htime)

/-- An output of a workload whose job was never registered is collected by the first pass. -/
theorem orphan_collected :
    ¬ ∀ (retention : ℚ) (as : List Action) (s : State),
      runFrom (step retention) {} as = some s → GcSafe retention as := by
  intro hclaim
  have hrun : (runFrom (step 3600) {} [.recordArtifacts ⟨"w", some "j", ["h"], ∅, "cas"⟩ 0,
      .gcPass 1]).isSome = true := by
    decide +kernel
  obtain ⟨s, hs⟩ := Option.isSome_iff_exists.1 hrun
  obtain ⟨-, s₁, h₁, hpass, -⟩ := hclaim _ _ s hs
  have hview : (step 3600 {} (.recordArtifacts ⟨"w", some "j", ["h"], ∅, "cas"⟩ 0)).bind
      (fun s => (step 3600 s (.gcPass 1)).map fun s' =>
        ((s.artifacts.artifacts.get? "w:h").map fun x => (x.lifecycleState, x.producerJobId),
          (s'.artifacts.artifacts.get? "w:h").map (·.lifecycleState), s'.clock,
          s.jobs.get? "j")) =
      some (some (.available, some "j"), some .gcEligible, 1, none) := by
    decide +kernel
  rw [h₁, Option.bind_some] at hview
  obtain ⟨s₂, h₂, hview⟩ := Option.map_eq_some_iff.1 hview
  simp only [Prod.mk.injEq] at hview
  obtain ⟨hx, hx', -, hjob⟩ := hview
  obtain ⟨x, hx, hxst⟩ := Option.map_eq_some_iff.1 hx
  obtain ⟨x', hx', hxst'⟩ := Option.map_eq_some_iff.1 hx'
  obtain ⟨hst, hj⟩ := Prod.mk.inj hxst
  obtain ⟨job, hdone, -⟩ :=
    (hpass s₂ h₂).marked "w:h" x x' "j" hx hx' hst hxst' hj (by decide)
  rw [hjob] at hdone
  cases hdone

end Aidars.ArtifactCollection
