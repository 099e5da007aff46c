import Aidars.Orchestrator.Concurrency
import Aidars.Orchestrator.Groups

/-!
# Confinement of the workloads of a job

The workloads of a job run on the workers that the job has selected; when too few of them are left,
a run promotes a spare worker. Each run keeps its own copy of the selected workers, so a promotion
by one run does not reach the copies of the others. Along runs whose copies are up to date when it
matters (`UpToDate`) attempts stay on the workers of the job, no worker is lost from its lists, and
a workload fails for lack of workers only after an attempt has failed on each of them
(`job_confinement`). Without that a workload fails while the job still has a worker it never tried
(`promoted_worker_untried`).
-/

namespace Aidars.Orchestrator

open AttemptRegistry (Marked)

variable {cfg : Config} {s s' : State} {w v x : String} {a : Action} {f f' : Frame} {d : Dispatch}

/-! ## Failed attempts -/

/-- An attempt of the workload has failed on the worker. -/
def FailedOn (s : State) (w x : String) : Prop :=
  ∃ id ∈ s.attempts.idsOf w, ∃ r ∈ s.attempts.getAttempt id,
    r.names x = true ∧ r.failureCategory.isSome = true

instance (s : State) (w x : String) : Decidable (FailedOn s w x) := by
  unfold FailedOn
  infer_instance

/-- An attempt of the workload had failed on the worker in some state of the run. -/
def HasFailedOn (cfg : Config) (as : List Action) (w x : String) : Prop :=
  ∃ as₁ s₁, as₁ <+: as ∧ runSteps cfg {} as₁ = some s₁ ∧ FailedOn s₁ w x

theorem HasFailedOn.append {as : List Action} (h : HasFailedOn cfg as w x) (bs : List Action) :
    HasFailedOn cfg (as ++ bs) w x := by
  obtain ⟨as₁, s₁, hpre, hrun, hfailed⟩ := h
  exact ⟨as₁, s₁, hpre.trans (List.prefix_append as bs), hrun, hfailed⟩

/-- The workers that earlier attempts exclude have failed. -/
theorem failedOn_of_exhausted (hs : GroupInv s)
    (hx : x ∈ exhaustedWorkerIds (s.attempts.listAttemptsForWorkload w)) : FailedOn s w x := by
  have hrecord : ∀ r ∈ (s.attempts.listAttemptsForWorkload w).filter
      (fun r => exhausts r.failureCategory), r.names x = true → FailedOn s w x := by
    intro r hr hnames
    obtain ⟨hlist, hex⟩ := List.mem_filter.1 hr
    obtain ⟨id, hid, hget⟩ := List.mem_filterMap.1 hlist
    refine ⟨id, hid, r, hget, hnames, ?_⟩
    cases hc : r.failureCategory with
    | some c => rfl
    | none =>
      rw [hc] at hex
      cases hex
  rcases List.mem_append.1 (PySet.mem_ofList.1 hx) with hx | hx
  · obtain ⟨r, hr, hworker⟩ := List.mem_filterMap.1 hx
    refine hrecord r (List.mem_of_mem_filter hr) ?_
    unfold AttemptRecord.names
    rw [hworker]
    simp
  · obtain ⟨r, hr, hmem⟩ := List.mem_flatMap.1 hx
    refine hrecord r hr ?_
    obtain ⟨id, -, hget⟩ := List.mem_filterMap.1 (List.mem_of_mem_filter hr)
    split at hmem
    · rename_i g hg
      have hin := (isValid_iff.1 ((hs.records id r hget).valid g hg)).2.2.2.1 x hmem
      unfold AttemptRecord.names
      rw [hg, Option.any_some, List.contains_iff_mem.2 hin, Bool.or_true]
    · cases hmem

theorem failedOn_of_blames {reply : Reply} {ids : List String} (hs : GroupInv s)
    (hat : AtAttempt s w f d) (hreports : ∀ x, reply.Reports x → x ∈ d.workerIds)
    (hmarked : Marked (Cause s w d reply) s.attempts s'.attempts) (hb : Blames s s' d reply ids)
    (hx : x ∈ ids) : FailedOn s' w x := by
  have hok := hs.dispatches.own w f d hat
  have hok' := hok.of_marked hmarked
  obtain ⟨r, hr, -⟩ := hok'.recorded
  have hmember : x ∈ d.workerIds := by
    rcases hb.source x hx with rfl | hx | hx | hx
    · exact hok.selected
    · exact hx
    · exact hreports x hx
    · exact hs.recorded_mem hat hx
  exact ⟨d.attemptId, hok'.listed, r, hr, hok'.names hr hmember,
    hb.failed (List.ne_nil_of_mem hx) r hr⟩

/-! ## What a run knows of its job -/

/-- What a step does to the view that a run has of its job and of the excluded workers. -/
inductive ViewStep (s : State) (a : Action) (s' : State) (w : String) (f' : Frame) : Prop
  | carried (f : Frame) (hf : s.frameOf w = some f) (hjob : f'.parentJob = f.parentJob)
      (hcount : f'.requiredWorkerCount = f.requiredWorkerCount)
      (hsel : f'.jobSelectedIds = f.jobSelectedIds)
      (hex : ∀ x ∈ f'.exhaustedWorkerIds, x ∈ f.exhaustedWorkerIds ∨ FailedOn s' w x)
  | promoted (f : Frame) (hf : Promotes s a w f) (hjob : f'.parentJob = f.parentJob)
      (hcount : f'.requiredWorkerCount = f.requiredWorkerCount)
      (hsel : f'.jobSelectedIds = (s.promoteSpare f).2.jobSelectedIds)
      (hex : ∀ x ∈ f'.exhaustedWorkerIds, x ∈ f.exhaustedWorkerIds ∨ FailedOn s' w x)

theorem ViewStep.of_goesOn {ids : List String} (hg : GoesOn w s' f ids) (hf : s.frameOf w = some f)
    (hids : ∀ x ∈ ids, FailedOn s' w x) (hf' : s'.frameOf w = some f') : ViewStep s a s' w f' := by
  rcases hg with hnone | ⟨f₁, hf₁, hr, hex⟩
  · rw [hnone] at hf'
    cases hf'
  · rw [State.frameOf, hf₁] at hf'
    obtain rfl := Option.some.inj hf'
    refine .carried f hf hr.parentJob hr.requiredWorkerCount hr.jobSelectedIds fun x hx => ?_
    exact (hex x hx).imp_right (hids x)

/-- An attempt that has just been recorded as lost. -/
theorem getAttempt_vanished {p : PlacementDecision} {rest : List PlacementDecision}
    {execId : String} {m : Option String} {missing : List String}
    (ha : s'.attempts = (assignNew s.attempts w p
      (State.newGroup f execId (p :: rest))).markLost (s.attempts.nextId w) m missing) :
    s.attempts.nextId w ∈ s'.attempts.idsOf w ∧ s'.attempts.getAttempt (s.attempts.nextId w) =
      some ((Mark.lost m missing).write
        (assignedRecord s.attempts w p (State.newGroup f execId (p :: rest)))) := by
  rw [ha]
  constructor
  · have hnew := idsOf_assignNew s.attempts w w p (State.newGroup f execId (p :: rest))
    rw [if_pos rfl] at hnew
    show _ ∈ (assignNew s.attempts w p (State.newGroup f execId (p :: rest))).idsOf w
    rw [hnew]
    exact List.mem_append_right _ (List.mem_singleton_self _)
  · rw [AttemptRegistry.markLost, AttemptRegistry.getAttempt_update, if_pos rfl,
      getAttempt_assignNew, if_pos rfl]
    rfl

theorem failedOn_of_missing {p : PlacementDecision} {rest : List PlacementDecision}
    {execId : String} {m : Option String} {missing : List String}
    (hmissing : ∀ x ∈ missing, x ∈ selectedIds p (State.newGroup f execId (p :: rest)))
    (ha : s'.attempts = (assignNew s.attempts w p
      (State.newGroup f execId (p :: rest))).markLost (s.attempts.nextId w) m missing)
    (hx : x ∈ missing) : FailedOn s' w x := by
  obtain ⟨hlisted, hget⟩ := getAttempt_vanished ha
  refine ⟨_, hlisted, _, hget, ?_, rfl⟩
  rw [(AttemptRegistry.fixed_write _ _).names x]
  exact names_of_mem_selectedIds rfl rfl (hmissing x hx)

/-- **What a step can do to the view of a run.** -/
theorem step_view (hs : GroupInv s) (hrestart : a.isRestart = false)
    (h : step cfg s a = some s') (hf' : s'.frameOf w = some f') : ViewStep s a s' w f' := by
  have hkept : s'.runs.get? w = s.runs.get? w → ViewStep s a s' w f' := by
    intro he
    rw [frameOf_congr he] at hf'
    exact .carried f' hf' rfl rfl rfl fun x hx => .inl hx
  by_cases hseg : a.segmentOf = some w
  · cases segment_of_eq hseg with
    | startRun =>
      rcases (startRun_spec h).2 with hnone | ⟨r, spec, f₁, hr, hready, hout, hf₁, heq⟩
      · rw [hnone] at hf'
        cases hf'
      · rw [State.frameOf, hf₁] at hf'
        obtain rfl := Option.some.inj hf'
        have hcongr := (@promoteSpare_congr
          ((s.updateState w .validating).updateState w .placing) s rfl (s.initialFrame w spec)).2
        obtain ⟨-, -, h₃, h₄, h₅⟩ := promoteSpare_retries s (s.initialFrame w spec)
        rw [hcongr] at heq
        rw [heq]
        refine .promoted _ (.inr ⟨r, spec, rfl, hr, hout, rfl⟩) h₄ h₃ rfl fun x hx => .inl ?_
        rw [← h₅]
        exact hx
    | place ranking now execId =>
      obtain ⟨f₀, hf₀, -, ⟨hnone, -⟩ | ⟨p, rest, -, hrec⟩⟩ := place_spec h
      · rw [hnone] at hf'
        cases hf'
      · have hpro : Promotes s (.place w ranking now execId) w f₀ :=
          .inl ⟨hf₀, ranking, now, execId, rfl⟩
        obtain ⟨-, -, h₃, h₄, h₅⟩ := promoteSpare_retries s f₀
        cases hrec with
        | dispatched d hd =>
          rw [State.frameOf, hd] at hf'
          obtain rfl := Option.some.inj hf'
          refine .promoted f₀ hpro h₄ h₃ rfl fun x hx => .inl ?_
          rw [← h₅]
          exact hx
        | vanished m missing hmissing ha hgoes =>
          rcases hgoes with hnone | ⟨f₁, hf₁, hr, hex⟩
          · rw [hnone] at hf'
            cases hf'
          · rw [State.frameOf, hf₁] at hf'
            obtain rfl := Option.some.inj hf'
            refine .promoted f₀ hpro (hr.parentJob.trans h₄) (hr.requiredWorkerCount.trans h₃)
              hr.jobSelectedIds fun x hx => ?_
            rw [← h₅]
            refine (hex x hx).imp_right fun hx => ?_
            exact failedOn_of_missing hmissing ha hx
    | callEvent i event =>
      obtain ⟨f, d, c, phase, hpc, rfl⟩ := advanceCall_cases h
      rw [State.frameOf, runs_setPc] at hf'
      obtain rfl := Option.some.inj hf'
      exact .carried f (by rw [State.frameOf, hpc]) rfl rfl rfl fun x hx => .inl hx
    | resume now =>
      obtain ⟨f, d, reply, hpc, hreply, hans, hmarked⟩ := resume_marked h
      have hold : s.frameOf w = some f := by rw [State.frameOf, hpc]
      cases hans with
      | waits r t heq =>
        rw [heq, State.frameOf, runs_setPc] at hf'
        obtain rfl := Option.some.inj hf'
        exact .carried f hold rfl rfl rfl fun x hx => .inl hx
      | checkpoint r u t hash hreply hgroup hc hhash ha hret =>
        rw [frameOf_of_returned hret] at hf'
        cases hf'
      | same ids hspec hgoes hb =>
        refine .of_goesOn hgoes hold (fun x hx => ?_) hf'
        refine failedOn_of_blames hs (.inl hpc) (fun y hy => ?_) hmarked hb hx
        rw [← (hs.dispatches.own w f d (.inl hpc)).calls]
        exact reports_dispatchReply hreply hy
    | drainResume now =>
      obtain ⟨f, d, r, t, hpc, hcases⟩ := drainResume_answered h
      obtain ⟨f₁, d₁, r₁, t₁, hpc₁, hmarked⟩ := drainResume_marked h
      rw [hpc] at hpc₁
      cases hpc₁
      have hplain := hs.dispatches.plain w f d r t hpc
      obtain ⟨ids, -, hgoes, hb⟩ := hcases hplain
      refine .of_goesOn hgoes (by rw [State.frameOf, hpc]) (fun x hx => ?_) hf'
      refine failedOn_of_blames hs (.inr ⟨r, t, hpc⟩) (fun y hy => ?_) (hmarked hplain) hb hx
      rcases hy with hy | hy
      · exact absurd hy (PySet.notMem_empty y)
      · exact hs.dispatches.transport w f d r t hpc y hy
    | finishRun =>
      rw [State.frameOf, (finishRun_cases h).2.1] at hf'
      cases hf'
  · rcases runs_foreign h hseg hrestart with he | he
    · exact hkept he
    · rw [State.frameOf, he] at hf'
      cases hf'

/-! ## The lists of a job -/

/-- The selected and the spare workers of a job are disjoint and together those of `U`. -/
structure Partitions (U : String → Prop) (job : JobRecord) : Prop where
  nonempty : job.selectedIds ≠ []
  union : ∀ x, x ∈ job.selectedIds ∨ x ∈ job.spareIds ↔ U x
  disjoint : ∀ x ∈ job.selectedIds, x ∉ job.spareIds
  nodup : job.spareIds.Nodup

variable {U : String → Prop} {job job' : JobRecord} {j : String}

/-- A promotion that finds no spare excluded keeps the workers of the job. -/
theorem Partitions.promote {selected exhausted : PySet String} {n : ℕ} (h : Partitions U job)
    (hspares : (selected.toList.filter (· ∉ exhausted)).length < n →
      (∃ x ∈ job.spareIds, x ∉ exhausted) → ∀ x ∈ job.spareIds, x ∉ exhausted) :
    Partitions U (job.maybePromoteSpareWorker selected exhausted n).1 := by
  rcases job.maybePromoteSpareWorker_cases selected exhausted n with ⟨he, -⟩ |
    ⟨promoted, rest, hlt, hfilter, he⟩
  · rw [he]
    exact h
  · have hmem : promoted ∈ job.spareIds.filter (· ∉ exhausted) := by
      rw [hfilter]
      exact List.mem_cons_self
    obtain ⟨hp, hnot⟩ := List.mem_filter.1 hmem
    have hall := hspares hlt ⟨promoted, hp, by simpa using hnot⟩
    have hlist : job.spareIds = promoted :: rest := by
      rw [← hfilter, List.filter_eq_self.2 fun x hx => decide_eq_true (hall x hx)]
    obtain ⟨hne, hunion, hdisjoint, hnodup⟩ := h
    rw [hlist] at hunion hdisjoint hnodup
    have hselected : promoted ∉ job.selectedIds := fun hin =>
      hdisjoint promoted hin List.mem_cons_self
    rw [he]
    have hsel : (job.selectedWorkerIds.map fun ids =>
        if promoted ∈ ids then ids else ids ++ [promoted]) =
          some (job.selectedIds ++ [promoted]) := by
      rw [JobRecord.selectedWorkerIds_eq hne, Option.map_some, if_neg hselected]
    dsimp only
    rw [hsel]
    refine ⟨?_, fun x => ?_, fun x hx => ?_, (List.nodup_cons.1 hnodup).2⟩
    · show job.selectedIds ++ [promoted] ≠ []
      simp
    · rw [← hunion x]
      show x ∈ job.selectedIds ++ [promoted] ∨ x ∈ rest ↔ _
      simp only [List.mem_append, List.mem_cons]
      tauto
    · show x ∉ rest
      rcases List.mem_append.1 hx with hx | hx
      · exact fun hr => hdisjoint x hx (List.mem_cons_of_mem _ hr)
      · rw [List.mem_singleton.1 hx]
        exact (List.nodup_cons.1 hnodup).1

theorem Partitions.sorted (h : Partitions U job)
    (hsel : job'.selectedWorkerIds = JobRecord.sortedIds job.selectedWorkerIds)
    (hspare : job'.spareWorkerIds = JobRecord.sortedIds job.spareWorkerIds) :
      Partitions U job' := by
  obtain ⟨hne, hunion, hdisjoint, hnodup⟩ := h
  have hselected : ∀ x, x ∈ job'.selectedIds ↔ x ∈ job.selectedIds := by
    intro x
    rw [JobRecord.selectedIds, hsel]
    exact JobRecord.mem_sortedIds
  have hspares : ∀ x, x ∈ job'.spareIds ↔ x ∈ job.spareIds := by
    intro x
    rw [JobRecord.spareIds, hspare]
    exact JobRecord.mem_sortedIds
  refine ⟨fun hnil => ?_, fun x => ?_, fun x hx => ?_, ?_⟩
  · obtain ⟨x, hx⟩ := List.exists_mem_of_ne_nil _ hne
    rw [← hselected x, hnil] at hx
    cases hx
  · rw [← hunion x, hselected, hspares]
  · rw [hspares]
    exact hdisjoint x ((hselected x).1 hx)
  · rw [JobRecord.spareIds, hspare]
    exact JobRecord.nodup_sortedIds.2 hnodup

/-! ## The guard -/

/-- The view with which a run promotes spare workers of the job is up to date: the run of a workload
of the job knows the job; a spare worker is promoted only while none of the spares is excluded; and
when all workers of the copy are excluded and no spare is left, the copy has every worker that the
job has selected. -/
def UpToDate (s : State) (j w : String) (f : Frame) : Prop :=
  (∀ spec ∈ s.specOf w, spec.jobId = some j → f.parentJob = some j) ∧
    (f.parentJob = some j → ∀ job ∈ s.jobs.get? j, ∀ selected ∈ f.jobSelectedIds,
      ((selected.toList.filter (· ∉ f.exhaustedWorkerIds)).length < f.requiredWorkerCount →
        (∃ x ∈ job.spareIds, x ∉ f.exhaustedWorkerIds) →
          ∀ x ∈ job.spareIds, x ∉ f.exhaustedWorkerIds) ∧
      ((∀ x ∈ selected.toList, x ∈ f.exhaustedWorkerIds) →
        (∀ x ∈ job.spareIds, x ∈ f.exhaustedWorkerIds) → ∀ x ∈ job.selectedIds, x ∈ selected))

instance (s : State) (j w : String) (f : Frame) : Decidable (UpToDate s j w f) := by
  unfold UpToDate
  infer_instance

/-- A step that promotes spare workers of the job does so with a view that is up to date, and a
restart finds the row of the job. -/
def ViewsCurrent (j : String) (s : State) : Action → Prop
  | .place w _ _ _ => ∀ f ∈ s.frameOf w, UpToDate s j w f
  | .startRun w => ∀ r ∈ s.workloads.get? w,
      ∀ spec ∈ s.specWithDependencyOutputs r.spec r.spec.dependsOn,
        UpToDate s j w (s.initialFrame w spec)
  | .restart _ => ∀ job ∈ s.jobs.get? j, job.threshold.all StateStore.fitsInt64 = true
  | _ => True

instance (j : String) (s : State) (a : Action) : Decidable (ViewsCurrent j s a) := by
  apply a.casesOn (motive := fun a => Decidable (ViewsCurrent j s a)) <;> intros <;>
    unfold ViewsCurrent <;> infer_instance

theorem ViewsCurrent.upToDate (h : ViewsCurrent j s a) (hf : Promotes s a w f) :
    UpToDate s j w f := by
  rcases hf with ⟨hpc, ranking, now, execId, rfl⟩ | ⟨r, spec, rfl, hr, hspec, rfl⟩
  · exact h f (by rw [State.frameOf, hpc]; rfl)
  · exact h r hr spec hspec

/-! ## The invariant -/

/-- The workers of the job are those of `U`, and every run that knows the job has a copy of
selected workers from among them. -/
structure ConfinedInv (j : String) (U : String → Prop) (s : State) : Prop where
  groups : GroupInv s
  job : ∃ job, s.jobs.get? j = some job ∧ Partitions U job
  frames : ∀ w f, s.frameOf w = some f → f.parentJob = some j → 1 ≤ f.requiredWorkerCount ∧
    ∃ selected, f.jobSelectedIds = some selected ∧ selected.toList ≠ [] ∧ ∀ x ∈ selected, U x

theorem one_le_requiredWorkerCount (h : job.Valid) : 1 ≤ job.requiredWorkerCount := by
  have h := h.2
  split_ifs at h <;> omega

/-- What a run that enters its loop knows of its job. -/
theorem initialFrame_parentJob {spec : WorkloadSpec}
    (h : (s.initialFrame w spec).parentJob = some j) : ∃ job, s.jobs.get? j = some job ∧
      (s.initialFrame w spec).jobSelectedIds = job.selectedWorkerIds.map PySet.ofList ∧
      (s.initialFrame w spec).requiredWorkerCount = job.requiredWorkerCount := by
  unfold State.initialFrame at h ⊢
  dsimp only at h ⊢
  cases hid : spec.jobId.filter (· ≠ "") with
  | none =>
    rw [hid] at h
    cases h
  | some j' =>
    rw [hid] at h
    simp only [Option.bind_some] at h ⊢
    cases hjob : s.jobs.get? j' with
    | none =>
      rw [hjob] at h
      cases h
    | some job =>
      rw [hjob] at h
      obtain rfl := Option.some.inj h
      exact ⟨job, hjob, rfl, rfl⟩

theorem ConfinedInv.promotes (hs : ConfinedInv j U s) (hf : Promotes s a w f)
    (hp : f.parentJob = some j) : 1 ≤ f.requiredWorkerCount ∧
      ∃ selected, f.jobSelectedIds = some selected ∧ selected.toList ≠ [] ∧ ∀ x ∈ selected,
        U x := by
  rcases hf with ⟨hpc, -⟩ | ⟨r, spec, -, -, -, rfl⟩
  · exact hs.frames w f (by rw [State.frameOf, hpc]) hp
  · obtain ⟨job, hjob, hpart⟩ := hs.job
    obtain ⟨job', hjob', hsel, hcount⟩ := initialFrame_parentJob hp
    obtain rfl := Option.some.inj (hjob.symm.trans hjob')
    rw [hcount, hsel, JobRecord.selectedWorkerIds_eq hpart.nonempty]
    refine ⟨one_le_requiredWorkerCount (hs.groups.jobs j job hjob), _, rfl, ?_, fun x hx => ?_⟩
    · intro hnil
      obtain ⟨x, hx⟩ := List.exists_mem_of_ne_nil _ hpart.nonempty
      have hx : x ∈ (PySet.ofList job.selectedIds).toList := PySet.mem_ofList.2 hx
      rw [hnil] at hx
      cases hx
    · exact (hpart.union x).1 (.inl (PySet.mem_ofList.1 hx))

/-- The copy after a promotion is from among the workers of the job. -/
theorem ConfinedInv.promoted (hs : ConfinedInv j U s) (hf : Promotes s a w f)
    (hp : f.parentJob = some j) : ∃ selected, (s.promoteSpare f).2.jobSelectedIds = some selected ∧
      selected.toList ≠ [] ∧ ∀ x ∈ selected, U x := by
  obtain ⟨-, selected, hsel, hne, hU⟩ := hs.promotes hf hp
  rcases promoteSpare_cases s f with ⟨he, -⟩ | ⟨j', job, sel, hj', hsel', hjob, -, he⟩
  · rw [he]
    exact ⟨selected, hsel, hne, hU⟩
  · rw [he]
    obtain rfl := Option.some.inj (hsel.symm.trans hsel')
    obtain rfl := Option.some.inj (hp.symm.trans hj')
    obtain ⟨job₁, hjob₁, hpart⟩ := hs.job
    obtain rfl := Option.some.inj (hjob.symm.trans hjob₁)
    rcases job.maybePromoteSpareWorker_cases selected f.exhaustedWorkerIds f.requiredWorkerCount
      with ⟨hcase, -⟩ | ⟨promoted, rest, -, hfilter, hcase⟩
    · rw [hcase]
      exact ⟨selected, rfl, hne, hU⟩
    · have hspare : promoted ∈ job.spareIds := by
        refine List.mem_of_mem_filter (p := fun x => decide (x ∉ f.exhaustedWorkerIds)) ?_
        rw [hfilter]
        exact List.mem_cons_self
      rw [hcase]
      refine ⟨selected.insert promoted, rfl, fun hnil => ?_, fun x hx => ?_⟩
      · have hin : promoted ∈ (selected.insert promoted).toList :=
          PySet.mem_insert.2 (.inl rfl)
        rw [hnil] at hin
        cases hin
      · rcases PySet.mem_insert.1 hx with rfl | hx
        · exact (hpart.union _).1 (.inr hspare)
        · exact hU x hx

theorem partitions_step (hs : ConfinedInv j U s) (hg : ViewsCurrent j s a)
    (h : step cfg s a = some s') : ∃ job, s'.jobs.get? j = some job ∧ Partitions U job := by
  obtain ⟨job, hjob, hpart⟩ := hs.job
  cases step_jobs h j with
  | same he => exact ⟨job, he.trans hjob, hpart⟩
  | created job₀ job' ha hj hnew hok he =>
    rw [hjob] at hnew
    cases hnew
  | promoted v f hf he =>
    rw [he]
    rcases promoteSpare_cases s f with ⟨hp, -⟩ | ⟨j', job', sel, hj', hsel, hjob', -, hp⟩
    · rw [hp]
      exact ⟨job, hjob, hpart⟩
    · rw [hp]
      dsimp only
      rw [Dict.get?_set]
      split_ifs with hjj
      · subst hjj
        obtain rfl := Option.some.inj (hjob.symm.trans hjob')
        exact ⟨_, rfl, hpart.promote ((hg.upToDate hf).2 hj' job hjob sel hsel).1⟩
      · exact ⟨job, hjob, hpart⟩
  | restarted ha he =>
    refine ⟨StateStore.storedJob job, ?_, hpart.sorted
      (StateStore.selectedWorkerIds_storedJob job) (StateStore.spareWorkerIds_storedJob job)⟩
    have hfits : job.threshold.all StateStore.fitsInt64 = true := by
      cases a with
      | restart now => exact hg job hjob
      | _ => cases ha
    rw [he, hjob, Option.bind_some]
    exact StateStore.reloadJob_eq_some_iff.2 ⟨hfits, hs.groups.jobs j job hjob, rfl⟩

theorem confinedInv_step (hs : ConfinedInv j U s) (hg : ViewsCurrent j s a)
    (h : step cfg s a = some s') : ConfinedInv j U s' := by
  refine ⟨groupInv_step hs.groups h, partitions_step hs hg h, fun w f hf hp => ?_⟩
  cases hrestart : a.isRestart with
  | true =>
    obtain ⟨now, rfl, rfl⟩ := restart_of_step hrestart h
    cases hf
  | false =>
    cases step_view hs.groups hrestart h hf with
    | carried f₀ hf₀ hjob hcount hsel hex =>
      rw [hcount, hsel]
      exact hs.frames w f₀ hf₀ (hjob ▸ hp)
    | promoted f₀ hpro hjob hcount hsel hex =>
      rw [hjob] at hp
      rw [hcount, hsel]
      exact ⟨(hs.promotes hpro hp).1, hs.promoted hpro hp⟩

/-! ## Excluded workers have failed -/

theorem hasFailedOn_of_promotes {as : List Action} (hrun : runSteps cfg {} as = some s)
    (hs : GroupInv s) (hex : ∀ w f, s.frameOf w = some f → ∀ x ∈ f.exhaustedWorkerIds,
      HasFailedOn cfg as w x) (hf : Promotes s a w f) (hx : x ∈ f.exhaustedWorkerIds) :
    HasFailedOn cfg as w x := by
  rcases hf with ⟨hpc, -⟩ | ⟨r, spec, -, -, -, rfl⟩
  · exact hex w f (by rw [State.frameOf, hpc]) x hx
  · exact ⟨as, s, List.prefix_refl as, hrun, failedOn_of_exhausted hs hx⟩

/-- **A run excludes workers on which an attempt of its workload has failed.** -/
theorem hasFailedOn_of_exhausted {as : List Action} (h : runSteps cfg {} as = some s) :
    GroupInv s ∧ ∀ w f, s.frameOf w = some f → ∀ x ∈ f.exhaustedWorkerIds,
      HasFailedOn cfg as w x := by
  refine (along_of_run h).history (H := fun as s => GroupInv s ∧ ∀ w f, s.frameOf w = some f →
    ∀ x ∈ f.exhaustedWorkerIds, HasFailedOn cfg as w x) ?_ ⟨groupInv_init, ?_⟩ h
  · rintro as s a s' hrun ⟨hs, hex⟩ - hstep
    refine ⟨groupInv_step hs hstep, fun w f hf x hx => ?_⟩
    have hnew : FailedOn s' w x → HasFailedOn cfg (as ++ [a]) w x := by
      intro hfailed
      refine ⟨as ++ [a], s', List.prefix_refl _, ?_, hfailed⟩
      exact runFrom_append.2 ⟨s, hrun, runFrom_cons.2 ⟨s', hstep, rfl⟩⟩
    cases hrestart : a.isRestart with
    | true =>
      obtain ⟨now, rfl, rfl⟩ := restart_of_step hrestart hstep
      cases hf
    | false =>
      cases step_view hs hrestart hstep hf with
      | carried f₀ hf₀ hjob hcount hsel hcases =>
        rcases hcases x hx with hx | hx
        · exact (hex w f₀ hf₀ x hx).append [a]
        · exact hnew hx
      | promoted f₀ hpro hjob hcount hsel hcases =>
        rcases hcases x hx with hx | hx
        · exact (hasFailedOn_of_promotes hrun hs hex hpro hx).append [a]
        · exact hnew hx
  · intro w f hf
    cases hf

theorem ConfinedInv.exhausted (hs : ConfinedInv j U s) (hg : ViewsCurrent j s a)
    (hf : Promotes s a w f) (hp : f.parentJob = some j)
    (hall : (s.promoteSpare f).2.allSelectedExhausted = true) (hx : U x) :
    x ∈ f.exhaustedWorkerIds := by
  obtain ⟨hone, selected, hsel, hne, -⟩ := hs.promotes hf hp
  obtain ⟨job, hjob, hpart⟩ := hs.job
  have hcurrent := ((hg.upToDate hf).2 hp job hjob selected hsel).2
  have hboth : (∀ y ∈ selected.toList, y ∈ f.exhaustedWorkerIds) →
      (∀ y ∈ job.spareIds, y ∈ f.exhaustedWorkerIds) → x ∈ f.exhaustedWorkerIds := by
    intro hselected hspares
    rcases (hpart.union x).2 hx with hx | hx
    · exact hselected x (hcurrent hselected hspares x hx)
    · exact hspares x hx
  have hsome : ∀ ids : PySet String, (ids.toList ≠ [] && ids.toList.all fun y =>
      decide (y ∈ f.exhaustedWorkerIds)) = true → ∀ y ∈ ids.toList, y ∈ f.exhaustedWorkerIds := by
    intro ids h y hy
    rw [Bool.and_eq_true] at h
    exact of_decide_eq_true (List.all_eq_true.1 h.2 y hy)
  rcases promoteSpare_cases s f with ⟨he, hskip⟩ | ⟨j', job', sel, hj', hsel', hjob', -, he⟩
  · -- nothing could be promoted, yet the copy is not empty
    rw [he, Frame.allSelectedExhausted, hsel, Option.any_some] at hall
    have hempty := hskip j selected hp hsel (by rw [hjob]; nofun)
    obtain ⟨y, hy⟩ := List.exists_mem_of_ne_nil _ hne
    have hin := hsome selected hall y hy
    rw [hempty] at hin
    exact absurd hin (PySet.notMem_empty y)
  · rw [he] at hall
    obtain rfl := Option.some.inj (hsel.symm.trans hsel')
    obtain rfl := Option.some.inj (hp.symm.trans hj')
    obtain rfl := Option.some.inj (hjob.symm.trans hjob')
    rw [Frame.allSelectedExhausted, Option.any_some] at hall
    have hselected := hsome _ hall
    rcases job.maybePromoteSpareWorker_cases selected f.exhaustedWorkerIds f.requiredWorkerCount
      with ⟨hcase, hreason⟩ | ⟨promoted, rest, -, hfilter, hcase⟩
    · rw [hcase] at hselected
      refine hboth hselected (hreason.resolve_left fun hle => ?_)
      have hnil : selected.toList.filter (· ∉ f.exhaustedWorkerIds) = [] :=
        List.filter_eq_nil_iff.2 fun y hy => by simpa using hselected y hy
      rw [hnil, List.length_nil] at hle
      omega
    · rw [hcase] at hselected
      have hmem : promoted ∈ job.spareIds.filter (· ∉ f.exhaustedWorkerIds) := by
        rw [hfilter]
        exact List.mem_cons_self
      have hin := hselected promoted (PySet.mem_insert.2 (.inl rfl))
      exact absurd hin (of_decide_eq_true (List.mem_filter.1 hmem).2)

/-! ## Attempts stay on the workers of the job -/

theorem choose_confined {ranking : Ranking} {now : ℚ} {ds : List PlacementDecision}
    {selected : PySet String} (h : s.choose cfg w f ranking now = some ds)
    (hsel : f.jobSelectedIds = some selected) : ∀ d ∈ ds, d.selectedWorkerId ∈ selected := by
  intro d hd
  obtain ⟨p, hp, hid, -⟩ := choose_eligible h d hd
  obtain ⟨info, hinfo, hprofile⟩ := List.mem_filterMap.1 hp
  obtain ⟨telemetry, -, rfl⟩ := Option.map_eq_some_iff.1 hprofile
  have hconf := (List.mem_filter.1 hinfo).2
  rw [Bool.and_eq_true, hsel, Option.all_some] at hconf
  rw [← hid]
  exact of_decide_eq_true hconf.1

theorem placed_of_created (hs : DispatchInv s) (h : step cfg s a = some s') {id : String}
    (hid : s'.attempts.idsOf w = s.attempts.idsOf w ++ [id]) :
    ∃ ranking now execId f₀ ds, a = .place w ranking now execId ∧
      s.runs.get? w = some (.lockWait f₀) ∧
      (s.promoteSpare f₀).1.choose cfg w (s.promoteSpare f₀).2 ranking now = some ds ∧
      ∃ r, s'.attempts.getAttempt id = some r ∧ r.workerId ≠ none ∧
        ∀ x, r.names x = true → ∃ d ∈ ds, d.selectedWorkerId = x := by
  have hsame : s'.attempts.idsOf w ≠ s.attempts.idsOf w := by
    rw [hid]
    simp
  cases step_attemptStep hs h with
  | placed v ranking now execId f₀ p rest ha hpc hchoose hrec =>
    have hids := idsOf_recorded hrec w
    rw [attempts_promoteSpare] at hids
    split_ifs at hids with hwv
    · subst hwv
      obtain ⟨r, hopen, hget⟩ := getAttempt_recorded hrec
      rw [attempts_promoteSpare] at hget
      have hnew : id = s.attempts.nextId w := by
        have := List.append_cancel_left (hid.symm.trans hids)
        exact (List.cons.inj this).1
      refine ⟨ranking, now, execId, f₀, p :: rest, ha, hpc, hchoose, r,
        by rw [hget, if_pos hnew], ?_, fun x hx => ?_⟩
      · rw [hopen.fixed.workerId]
        nofun
      · rw [hopen.fixed.names x] at hx
        exact names_newGroup rfl rfl hx
    · exact absurd hids hsame
  | restarted ha hattempts hruns =>
    have hlen := congrArg List.length hid
    rw [hattempts, idsOf_restoreAttempts, List.length_append, List.length_singleton] at hlen
    have hle := List.length_filter_le (fun id => (s.attempts.getAttempt id).any fun r =>
      (StateStore.reloadAttempt r).isSome) (s.attempts.idsOf w)
    omega
  | answered v f₀ d₀ reply ha hat hreports hmarked => exact absurd (hmarked.idsOf w) hsame
  | evicted ha hmarked => exact absurd (hmarked.idsOf w) hsame
  | same hattempts => exact absurd (by rw [hattempts]) hsame

theorem ConfinedInv.attempt (hs : ConfinedInv j U s) (hg : ViewsCurrent j s a)
    (h : step cfg s a = some s') {spec : WorkloadSpec} {id : String}
    (hspec : s.specOf w = some spec)
    (hj : spec.jobId = some j) (hid : s'.attempts.idsOf w = s.attempts.idsOf w ++ [id]) :
    ∃ r, s'.attempts.getAttempt id = some r ∧ r.workerId ≠ none ∧
      ∀ x, r.names x = true → U x := by
  obtain ⟨ranking, now, execId, f₀, ds, ha, hpc, hchoose, r, hget, hworker, hnames⟩ :=
    placed_of_created hs.groups.dispatches h hid
  have hpro : Promotes s a w f₀ := .inl ⟨hpc, ranking, now, execId, ha⟩
  have hparent := (hg.upToDate hpro).1 spec hspec hj
  obtain ⟨selected, hsel, -, hU⟩ := hs.promoted hpro hparent
  refine ⟨r, hget, hworker, fun x hx => ?_⟩
  obtain ⟨d, hd, rfl⟩ := hnames x hx
  exact hU _ (choose_confined hchoose hsel d hd)

/-! ## Failing for lack of workers -/

/-- The error message of a workload whose job has no worker left. -/
def ASSIGNED_EXHAUSTED : String :=
  "All assigned workers for this job have been exhausted by previous failed attempts"

/-- The state and the error message of a workload. -/
def State.failureOf (s : State) (w : String) : Option (WorkloadState × Option String) :=
  (s.workloads.get? w).map fun r => (r.state, r.errorMessage)

/-- The step fails the workload for lack of workers. -/
def FailsExhausted (s : State) (a : Action) (s' : State) (w : String) : Prop :=
  (a = .startRun w ∨ ∃ ranking now execId, a = .place w ranking now execId) ∧
    s'.failureOf w = some (.failed, some ASSIGNED_EXHAUSTED) ∧ s'.failureOf w ≠ s.failureOf w

theorem failureOf_updateState (s : State) (w : String) (st : WorkloadState) (m : Option String) :
    (s.updateState w st m).failureOf w = (s.failureOf w).map fun o => (st, m <|> o.2) := by
  simp only [State.failureOf, State.updateState, State.modifyWorkload, Dict.get?_modify, if_true,
    Option.map_map]
  rfl

theorem failureOf_returnRun (s : State) (v w : String) :
    (s.returnRun v).failureOf w = s.failureOf w := by
  unfold State.returnRun
  split_ifs <;> rfl

/-- The outcome of a run that fails is the message that it fails with. -/
theorem failureOf_failRun {m : String} (h : (s.failRun w (some m)).failureOf w =
    some (.failed, some ASSIGNED_EXHAUSTED)) : m = ASSIGNED_EXHAUSTED := by
  rw [State.failRun, failureOf_returnRun, failureOf_updateState] at h
  obtain ⟨o, -, ho⟩ := Option.map_eq_some_iff.1 h
  exact Option.some.inj (Prod.mk.inj ho).2

/-- A run that is left in another state has not failed. -/
theorem failureOf_updated (st : WorkloadState) {m : Option String} (hst : st ≠ .failed)
    (h : (s.updateState w st m).failureOf w = some (.failed, some ASSIGNED_EXHAUSTED)) : False := by
  rw [failureOf_updateState] at h
  obtain ⟨o, -, ho⟩ := Option.map_eq_some_iff.1 h
  exact hst (Prod.mk.inj ho).1

theorem ne_of_head {m : String} {c : Char} (h : m.toList.head? = some c) (hc : c ≠ 'A') :
    m ≠ ASSIGNED_EXHAUSTED := by
  rintro rfl
  have hA : ASSIGNED_EXHAUSTED.toList.head? = some 'A' := by decide +kernel
  exact hc (Option.some.inj (h.symm.trans hA))

theorem head_append {l m : String} {c : Char} (h : l.toList.head? = some c) :
    (l ++ m).toList.head? = some c := by
  rw [String.toList_append]
  cases hl : l.toList with
  | nil =>
    rw [hl] at h
    cases h
  | cons b l' =>
    rw [hl] at h
    exact h

theorem dependencyState_message (s : State) (w : String) (deps : List String)
    (h : (s.dependencyState w deps).1.failureOf w = some (.failed, some ASSIGNED_EXHAUSTED)) :
    (s.dependencyState w deps).1.failureOf w = s.failureOf w := by
  induction deps with
  | nil => rfl
  | cons dep deps ih =>
    unfold State.dependencyState at h ⊢
    split
    · rfl
    · rename_i st hst
      rw [hst] at h
      dsimp only at h
      split_ifs at h ⊢
      · rw [failureOf_updateState] at h
        obtain ⟨o, -, ho⟩ := Option.map_eq_some_iff.1 h
        refine absurd (Option.some.inj (Prod.mk.inj ho).2) (ne_of_head (c := 'D') ?_ (by decide))
        refine head_append (head_append (head_append (head_append ?_)))
        decide +kernel
      · rfl
      · exact ih h

theorem failureOf_promoteSpare (s : State) (f : Frame) (w : String) :
    (s.promoteSpare f).1.failureOf w = s.failureOf w := by
  rcases promoteSpare_cases s f with ⟨he, -⟩ | ⟨j, job, sel, -, -, -, -, he⟩ <;> rw [he]
  rfl

theorem startRun_failsExhausted (h : s.startRun cfg w = some s')
    (hfail : s'.failureOf w = some (.failed, some ASSIGNED_EXHAUSTED))
    (hne : s'.failureOf w ≠ s.failureOf w) : ∃ f, Promotes s (.startRun w) w f ∧
      (s.promoteSpare f).2.allSelectedExhausted = true := by
  unfold State.startRun at h
  split at h
  · split at h
    · obtain rfl := Option.some.inj h
      exact absurd (failureOf_returnRun s w w) hne
    · rename_i record hrecord
      have hmessage := dependencyState_message s w record.spec.dependsOn
      have hready := dependencyState_ready s w record.spec.dependsOn
      split_ifs at h
      · obtain rfl := Option.some.inj h
        exact absurd (failureOf_returnRun s w w) hne
      · split at h
        · rename_i s₁ hs
          rw [hs] at hready
          obtain rfl : s₁ = s := hready rfl
          split at h
          · rename_i spec hspec
            obtain rfl := Option.some.inj h
            have hcongr := (@promoteSpare_congr
              ((s₁.updateState w .validating).updateState w .placing) s₁ rfl
              (s₁.initialFrame w spec)).2
            unfold State.enterLoop at hfail
            dsimp only at hfail
            split_ifs at hfail with hbudget hall
            · exact absurd (failureOf_failRun hfail) (by decide +kernel)
            · rw [hcongr] at hall
              exact ⟨_, .inr ⟨record, spec, rfl, hrecord, hspec, rfl⟩, hall⟩
            · have hplacing : ((s₁.updateState w .validating).updateState w .placing).failureOf w =
                  some (.failed, some ASSIGNED_EXHAUSTED) :=
                (failureOf_promoteSpare _ _ w).symm.trans hfail
              exact absurd hplacing fun hp => failureOf_updated _ (by decide) hp
          · obtain rfl := Option.some.inj h
            exact absurd (failureOf_returnRun s₁ w w) hne
        · rename_i s₁ _ _ hs
          rw [hs] at hmessage
          obtain rfl := Option.some.inj h
          rw [failureOf_returnRun] at hfail hne
          exact absurd (hmessage hfail) hne
  · cases h

theorem place_failsExhausted {ranking : Ranking} {now : ℚ} {execId : String}
    (h : s.place cfg w ranking now execId = some s')
    (hfail : s'.failureOf w = some (.failed, some ASSIGNED_EXHAUSTED))
    (hne : s'.failureOf w ≠ s.failureOf w) :
    ∃ f, Promotes s (.place w ranking now execId) w f ∧
      (s.promoteSpare f).2.allSelectedExhausted = true := by
  unfold State.place at h
  split at h
  · rename_i f hpc
    have hnone : ((s.promoteSpare f).1.noDecision w (s.promoteSpare f).2).failureOf w =
        some (.failed, some ASSIGNED_EXHAUSTED) → (s.promoteSpare f).2.allSelectedExhausted := by
      intro hn
      unfold State.noDecision at hn
      dsimp only at hn
      split_ifs at hn with hruntime hall hothers
      · rw [failureOf_returnRun] at hn
        exact absurd hn fun hp => failureOf_updated _ (by decide) hp
      · exact hall
      · exact absurd (failureOf_failRun hn) (by decide +kernel)
      · rw [failureOf_returnRun] at hn
        exact absurd hn fun hp => failureOf_updated _ (by decide) hp
    refine ⟨f, .inl ⟨hpc, ranking, now, execId, rfl⟩, ?_⟩
    dsimp only at h
    split_ifs at h
    · obtain rfl := Option.some.inj h
      exact absurd ((failureOf_returnRun _ w w).trans (failureOf_promoteSpare s f w)) hne
    · split at h
      · obtain rfl := Option.some.inj h
        exact hnone hfail
      · obtain rfl := Option.some.inj h
        exact hnone hfail
      · rename_i p rest _
        obtain rfl := Option.some.inj h
        unfold State.launch at hfail
        dsimp only at hfail
        split_ifs at hfail
        · unfold State.retryOrFail at hfail
          split_ifs at hfail
          · exact absurd hfail fun hp => failureOf_updated .placed (by decide) hp
          · refine absurd (failureOf_failRun hfail) (ne_of_head (c := 'S') ?_ (by decide))
            refine head_append ?_
            decide +kernel
        · exact absurd hfail fun hp => failureOf_updated .executing (by decide) hp
  · cases h

theorem failsExhausted_promotes (h : step cfg s a = some s') (hf : FailsExhausted s a s' w) :
    ∃ f, Promotes s a w f ∧ (s.promoteSpare f).2.allSelectedExhausted = true := by
  obtain ⟨rfl | ⟨ranking, now, execId, rfl⟩, hfail, hne⟩ := hf
  · exact startRun_failsExhausted h hfail hne
  · exact place_failsExhausted h hfail hne

/-! ## Runs -/

/-- Runs know jobs that exist. -/
structure ParentInv (s : State) : Prop where
  groups : GroupInv s
  parents : ∀ w f j, s.frameOf w = some f → f.parentJob = some j → s.jobs.get? j ≠ none

theorem parentInv_init : ParentInv {} := by
  refine ⟨groupInv_init, fun w f j hf => ?_⟩
  cases hf

theorem jobs_kept (h : step cfg s a = some s') (hrestart : a.isRestart = false)
    (hj : s.jobs.get? j ≠ none) : s'.jobs.get? j ≠ none := by
  cases step_jobs h j with
  | same he => rwa [he]
  | created job₀ job' ha hid hnew hok he =>
    rw [he]
    nofun
  | promoted v f hf he =>
    rw [he]
    rcases promoteSpare_cases s f with ⟨hp, -⟩ | ⟨j', job', sel, -, -, -, -, hp⟩
    · rwa [hp]
    · rw [hp]
      dsimp only
      rw [Dict.get?_set]
      split_ifs
      · nofun
      · exact hj
  | restarted ha he =>
    rw [hrestart] at ha
    cases ha

theorem parentInv_step (hs : ParentInv s) (h : step cfg s a = some s') : ParentInv s' := by
  refine ⟨groupInv_step hs.groups h, fun w f j hf hp => ?_⟩
  cases hrestart : a.isRestart with
  | true =>
    obtain ⟨now, rfl, rfl⟩ := restart_of_step hrestart h
    cases hf
  | false =>
    refine jobs_kept h hrestart ?_
    cases step_frameOf hs.groups.dispatches.plain hrestart h hf with
    | carried f₀ hf₀ hspec hshape hcount hjob => exact hs.parents w f₀ j hf₀ (hjob ▸ hp)
    | entered r spec ha hr hready hout hspec hshape hcount hjob =>
      obtain ⟨job, hj, -⟩ := initialFrame_parentJob (hjob ▸ hp)
      rw [hj]
      nofun

/-- A job that has just been created. -/
theorem confinedInv_created {as : List Action} (h : runSteps cfg {} as = some s)
    (hnew : s.jobs.get? job.jobId = none) (hok : job.create = .ok job')
    (hpart : Partitions U job) : ConfinedInv job.jobId U (s.createJob job) := by
  have hinv : ParentInv s := runFrom_invariant (fun _ _ _ => parentInv_step) parentInv_init h
  have hid : job'.jobId = job.jobId := by rw [(JobRecord.create_eq_ok_iff.1 hok).2]
  have hstate : s.createJob job = { s with jobs := s.jobs.set job.jobId job' } := by
    unfold State.createJob
    rw [hnew, hok]
    dsimp only
    rw [hid]
  refine ⟨@groupInv_step cfg s _ (.createJob job) hinv.groups rfl, ?_, fun w f hf hp => ?_⟩
  · rw [hstate]
    obtain ⟨-, rfl⟩ := JobRecord.create_eq_ok_iff.1 hok
    exact ⟨_, by rw [Dict.get?_set, if_pos rfl], hpart.sorted rfl rfl⟩
  · rw [hstate] at hf
    exact absurd hnew (hinv.parents w f _ hf hp)

/-- **Confinement of the workloads of a job.** After a job with selected workers and disjoint spare
workers has been created, along every run whose views are up to date: the selected and spare workers
of the job stay disjoint and together the same; each step makes attempts of its workloads for these
workers only; and no step fails a workload of the job for lack of workers unless an attempt of the
workload had failed on each of them. -/
theorem job_confinement {as bs : List Action} {s₀ : State} (has : runSteps cfg {} as = some s₀)
    (hnew : s₀.jobs.get? job.jobId = none) (hok : job.create = .ok job')
    (hselected : job.selectedIds ≠ []) (hdisjoint : ∀ x ∈ job.selectedIds, x ∉ job.spareIds)
    (hnodup : job.spareIds.Nodup)
    (hcurrent : Along (step cfg) (ViewsCurrent job.jobId) (s₀.createJob job) bs)
    (hbs : runSteps cfg {} (as ++ .createJob job :: bs) = some s) :
    (∃ rec, s.jobs.get? job.jobId = some rec ∧
      (∀ x, x ∈ rec.selectedIds ∨ x ∈ rec.spareIds ↔ x ∈ job.selectedIds ∨ x ∈ job.spareIds) ∧
      ∀ x ∈ rec.selectedIds, x ∉ rec.spareIds) ∧
    ∀ a s' w spec, ViewsCurrent job.jobId s a → step cfg s a = some s' →
      s.specOf w = some spec → spec.jobId = some job.jobId →
      (∀ id, s'.attempts.idsOf w = s.attempts.idsOf w ++ [id] →
        ∃ r, s'.attempts.getAttempt id = some r ∧ r.workerId ≠ none ∧
          ∀ x, r.names x = true → x ∈ job.selectedIds ∨ x ∈ job.spareIds) ∧
      (FailsExhausted s a s' w → ∀ rec, s'.jobs.get? job.jobId = some rec →
        ∀ x, x ∈ rec.selectedIds ∨ x ∈ rec.spareIds →
          HasFailedOn cfg (as ++ .createJob job :: bs) w x) := by
  have hpart : Partitions (fun x => x ∈ job.selectedIds ∨ x ∈ job.spareIds) job :=
    ⟨hselected, fun _ => Iff.rfl, hdisjoint, hnodup⟩
  have hrun : runSteps cfg (s₀.createJob job) bs = some s := by
    obtain ⟨s₁, h₁, h₂⟩ := runFrom_append.1 hbs
    obtain ⟨s₂, h₃, h₄⟩ := runFrom_cons.1 h₂
    obtain rfl := Option.some.inj (has.symm.trans h₁)
    obtain rfl := Option.some.inj h₃
    exact h₄
  have hs : ConfinedInv job.jobId (fun x => x ∈ job.selectedIds ∨ x ∈ job.spareIds) s :=
    hcurrent.invariant (fun _ _ _ hi hg hstep => confinedInv_step hi hg hstep)
      (confinedInv_created has hnew hok hpart) hrun
  obtain ⟨rec, hrec, hrpart⟩ := hs.job
  refine ⟨⟨rec, hrec, hrpart.union, hrpart.disjoint⟩, ?_⟩
  intro a s' w spec hg hstep hspec hj
  refine ⟨fun id hid => hs.attempt hg hstep hspec hj hid, fun hfails rec' hrec' x hx => ?_⟩
  obtain ⟨f, hpro, hall⟩ := failsExhausted_promotes hstep hfails
  have hparent := (hg.upToDate hpro).1 spec hspec hj
  obtain ⟨rec₁, hrec₁, hpart₁⟩ := (confinedInv_step hs hg hstep).job
  obtain rfl := Option.some.inj (hrec'.symm.trans hrec₁)
  have hin := hs.exhausted hg hpro hparent hall ((hpart₁.union x).1 hx)
  obtain ⟨hgroups, hex⟩ := hasFailedOn_of_exhausted hbs
  exact hasFailedOn_of_promotes hbs hgroups hex hpro hin

/-- A job with a selected and a spare worker. -/
def spareJob (members : List String) : JobRecord where
  jobId := "j"
  workloadIds := PySet.ofList members
  selectedWorkerIds := some ["a"]
  spareWorkerIds := some ["b"]

/-- Two workers register. -/
def registerSample : List Action :=
  ["a", "b"].map fun x => .registryOp (.registerWorker (sampleWorker x) 0)

/-- The workloads of the job are submitted and their runs wait for the placement lock. -/
def memberSample (members : List String) : List Action :=
  members.map (fun w => .submitWorkload { sampleSpec w with jobId := some "j" }) ++
    .admissionPass members :: members.map .startRun

/-- An attempt that its worker refuses. -/
def refusedSample (w : String) : List Action :=
  [.place w sampleRanking 0 "group", .callEvent w 0 (.submitUnavailable "refused"), .resume w 0]

/-- A workload that both workers of its job have refused fails for lack of workers. -/
theorem job_confinement_refused :
    ∃ s s' : State, runSteps (sampleConfig 3) {} (registerSample ++ .createJob (spareJob ["w"]) ::
        (memberSample ["w"] ++ refusedSample "w" ++ refusedSample "w")) = some s ∧
      step (sampleConfig 3) s (.place "w" sampleRanking 0 "group") = some s' ∧
      FailsExhausted s (.place "w" sampleRanking 0 "group") s' "w" ∧
      ∀ x ∈ ["a", "b"],
        HasFailedOn (sampleConfig 3) (registerSample ++ .createJob (spareJob ["w"]) ::
        (memberSample ["w"] ++ refusedSample "w" ++ refusedSample "w")) "w" x := by
  have hrun : (runSteps (sampleConfig 3) {} registerSample).bind (fun s₀ =>
      (runSteps (sampleConfig 3) {} (registerSample ++ .createJob (spareJob ["w"]) ::
        (memberSample ["w"] ++ refusedSample "w" ++ refusedSample "w"))).bind fun s =>
      (step (sampleConfig 3) s (.place "w" sampleRanking 0 "group")).bind fun s' =>
      (s.specOf "w").bind fun spec => (s'.jobs.get? "j").map fun rec => decide (
        Along (step (sampleConfig 3)) (ViewsCurrent "j") (s₀.createJob (spareJob ["w"]))
          (memberSample ["w"] ++ refusedSample "w" ++ refusedSample "w") ∧
        ViewsCurrent "j" s (.place "w" sampleRanking 0 "group") ∧ s₀.jobs.get? "j" = none ∧
        spec.jobId = some "j" ∧ s'.failureOf "w" = some (.failed, some ASSIGNED_EXHAUSTED) ∧
        s'.failureOf "w" ≠ s.failureOf "w" ∧ rec.selectedIds = ["a", "b"])) = some true := by
    decide +kernel
  obtain ⟨s₀, hs₀, hv⟩ := Option.bind_eq_some_iff.1 hrun
  obtain ⟨s, hs, hv⟩ := Option.bind_eq_some_iff.1 hv
  obtain ⟨s', hs', hv⟩ := Option.bind_eq_some_iff.1 hv
  obtain ⟨spec, hspec, hv⟩ := Option.bind_eq_some_iff.1 hv
  obtain ⟨rec, hrec, hv⟩ := Option.map_eq_some_iff.1 hv
  obtain ⟨halong, hview, hnew, hj, hfail, hne, hids⟩ := of_decide_eq_true hv
  have hfails : FailsExhausted s (.place "w" sampleRanking 0 "group") s' "w" :=
    ⟨.inr ⟨_, _, _, rfl⟩, hfail, hne⟩
  have hok : (spareJob ["w"]).create = .ok (spareJob ["w"]) := by decide +kernel
  obtain ⟨-, hsteps⟩ := job_confinement hs₀ hnew hok (by decide) (by decide) (by decide) halong hs
  obtain ⟨-, htried⟩ := hsteps _ s' "w" spec hview hs' hspec hj
  refine ⟨s, s', hs, hs', hfails, fun x hx => htried hfails rec hrec x (.inl ?_)⟩
  rw [hids]
  exact hx

/-- A workload fails for lack of workers while its job has a worker that it never tried: both
workloads are refused by the selected worker, one of them promotes the spare, and the copy of the
other is without it. -/
theorem promoted_worker_untried :
    ¬ ∀ (cfg : Config) (as bs : List Action) (job job' : JobRecord) (s₀ s s' : State) (a : Action)
      (w : String) (spec : WorkloadSpec), runSteps cfg {} as = some s₀ →
      s₀.jobs.get? job.jobId = none → job.create = .ok job' → job.selectedIds ≠ [] →
      (∀ x ∈ job.selectedIds, x ∉ job.spareIds) → job.spareIds.Nodup →
      runSteps cfg {} (as ++ .createJob job :: bs) = some s → step cfg s a = some s' →
      s.specOf w = some spec → spec.jobId = some job.jobId →
      (∃ rec, s.jobs.get? job.jobId = some rec ∧
        (∀ x, x ∈ rec.selectedIds ∨ x ∈ rec.spareIds ↔ x ∈ job.selectedIds ∨ x ∈ job.spareIds) ∧
        ∀ x ∈ rec.selectedIds, x ∉ rec.spareIds) ∧
      (∀ id, s'.attempts.idsOf w = s.attempts.idsOf w ++ [id] →
        ∃ r, s'.attempts.getAttempt id = some r ∧ r.workerId ≠ none ∧
          ∀ x, r.names x = true → x ∈ job.selectedIds ∨ x ∈ job.spareIds) ∧
      (FailsExhausted s a s' w → ∀ rec, s'.jobs.get? job.jobId = some rec →
        ∀ x, x ∈ rec.selectedIds ∨ x ∈ rec.spareIds →
          HasFailedOn cfg (as ++ .createJob job :: bs) w x) := by
  intro hclaim
  have hrun : (runSteps (sampleConfig 3) {} registerSample).bind (fun s₀ =>
      (runSteps (sampleConfig 3) {} (registerSample ++ .createJob (spareJob ["v", "w"]) ::
        (memberSample ["v", "w"] ++ refusedSample "v" ++ refusedSample "w" ++
          [.place "v" sampleRanking 0 "group"]))).bind fun s =>
      (step (sampleConfig 3) s (.place "w" sampleRanking 0 "group")).bind fun s' =>
      (s.specOf "w").bind fun spec => (s'.jobs.get? "j").map fun rec => decide (
        s₀.jobs.get? "j" = none ∧ spec.jobId = some "j" ∧
        s'.failureOf "w" = some (.failed, some ASSIGNED_EXHAUSTED) ∧
        s'.failureOf "w" ≠ s.failureOf "w" ∧ "b" ∈ rec.selectedIds)) = some true := by
    decide +kernel
  obtain ⟨s₀, hs₀, hv⟩ := Option.bind_eq_some_iff.1 hrun
  obtain ⟨s, hs, hv⟩ := Option.bind_eq_some_iff.1 hv
  obtain ⟨s', hs', hv⟩ := Option.bind_eq_some_iff.1 hv
  obtain ⟨spec, hspec, hv⟩ := Option.bind_eq_some_iff.1 hv
  obtain ⟨rec, hrec, hv⟩ := Option.map_eq_some_iff.1 hv
  obtain ⟨hnew, hj, hfail, hne, hb⟩ := of_decide_eq_true hv
  have hok : (spareJob ["v", "w"]).create = .ok (spareJob ["v", "w"]) := by decide +kernel
  obtain ⟨-, -, htried⟩ := hclaim _ _ _ _ _ s₀ s s' _ "w" spec hs₀ hnew hok (by decide) (by decide)
    (by decide) hs hs' hspec hj
  obtain ⟨as₁, s₁, hpre, hs₁, hfailed⟩ :=
    htried ⟨.inr ⟨_, _, _, rfl⟩, hfail, hne⟩ rec hrec "b" (.inl hb)
  have hnever : ∀ as₁ ∈ (registerSample ++ Action.createJob (spareJob ["v", "w"]) ::
      (memberSample ["v", "w"] ++ refusedSample "v" ++ refusedSample "w" ++
        [Action.place "v" sampleRanking 0 "group"])).inits,
      ∀ s₁ ∈ runSteps (sampleConfig 3) {} as₁, ¬ FailedOn s₁ "w" "b" := by decide +kernel
  exact hnever as₁ ((List.mem_inits _ _).2 hpre) s₁ hs₁ hfailed

end Aidars.Orchestrator
