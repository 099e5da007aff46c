import Aidars.Orchestrator.Specs

/-!
# Jobs along runs

The record of a job is created once, changes when a run promotes a spare worker, and is constructed
again by a restart (`JobStep`). Promotion happens in the segment before the placement lock is waited
for and in the segment after it; all other segments leave the jobs alone (`step_jobs`).
-/

namespace Aidars.Orchestrator

variable {cfg : Config} {s s' : State} {w v : String} {a : Action} {f : Frame} {d : Dispatch}

/-! ## Promotion -/

/-- How the promotion of a run goes: it is skipped, for a run without a job or without excluded
workers, or the job decides. -/
theorem promoteSpare_cases (s : State) (f : Frame) : (s.promoteSpare f = (s, f) ∧
    ∀ j selected, f.parentJob = some j → f.jobSelectedIds = some selected → s.jobs.get? j ≠ none →
      f.exhaustedWorkerIds = ∅) ∨
    ∃ j job selected, f.parentJob = some j ∧ f.jobSelectedIds = some selected ∧
      s.jobs.get? j = some job ∧ f.exhaustedWorkerIds ≠ ∅ ∧
      s.promoteSpare f =
        ({ s with jobs := s.jobs.set j (job.maybePromoteSpareWorker selected f.exhaustedWorkerIds
            f.requiredWorkerCount).1 },
          { f with jobSelectedIds := some (job.maybePromoteSpareWorker selected
            f.exhaustedWorkerIds f.requiredWorkerCount).2 }) := by
  unfold State.promoteSpare
  split
  · rename_i j selected hj hsel
    split
    · rename_i job hjob
      split_ifs with hex
      · exact .inl ⟨rfl, fun _ _ _ _ _ => hex⟩
      · exact .inr ⟨j, job, selected, hj, hsel, hjob, hex, rfl⟩
    · rename_i hnone
      refine .inl ⟨rfl, fun j' _ hj' _ hne => ?_⟩
      rw [hj] at hj'
      obtain rfl := Option.some.inj hj'
      exact absurd hnone hne
  · rename_i hnone
    exact .inl ⟨rfl, fun j selected hj hsel _ => absurd hsel (hnone j selected hj)⟩

theorem promoteSpare_congr {s₁ s₂ : State} (h : s₁.jobs = s₂.jobs) (f : Frame) :
    (s₁.promoteSpare f).1.jobs = (s₂.promoteSpare f).1.jobs ∧
      (s₁.promoteSpare f).2 = (s₂.promoteSpare f).2 := by
  unfold State.promoteSpare
  rw [h]
  split
  · split
    · split_ifs
      · exact ⟨h, rfl⟩
      · exact ⟨rfl, rfl⟩
    · exact ⟨h, rfl⟩
  · exact ⟨h, rfl⟩

/-! ## Segments -/

theorem jobs_returnRun (s : State) (w : String) : (s.returnRun w).jobs = s.jobs := by
  unfold State.returnRun
  split_ifs <;> rfl

theorem jobs_failRun (s : State) (w : String) (m : Option String) :
    (s.failRun w m).jobs = s.jobs := jobs_returnRun _ w

theorem jobs_retryOrFail (s : State) (w : String) (f : Frame) (c : Option FailureCategory)
    (m : String) : (s.retryOrFail cfg w f c m).jobs = s.jobs := by
  unfold State.retryOrFail
  split_ifs
  · rfl
  · exact jobs_failRun s w _

theorem jobs_dependencyState (s : State) (w : String) (deps : List String) :
    (s.dependencyState w deps).1.jobs = s.jobs := by
  rcases dependencyState_cases s w deps with h | ⟨-, m, h⟩ <;> rw [h]
  rfl

theorem jobs_startRun (h : s.startRun cfg w = some s') : s'.jobs = s.jobs ∨
    ∃ r spec, s.workloads.get? w = some r ∧
      s.specWithDependencyOutputs r.spec r.spec.dependsOn = some spec ∧
      s'.jobs = (s.promoteSpare (s.initialFrame w spec)).1.jobs := by
  unfold State.startRun at h
  split at h
  · split at h
    · obtain rfl := Option.some.inj h
      exact .inl (jobs_returnRun s w)
    · rename_i record hrecord
      have hdep := jobs_dependencyState s w record.spec.dependsOn
      have hready := dependencyState_ready s w record.spec.dependsOn
      split_ifs at h
      · obtain rfl := Option.some.inj h
        exact .inl (jobs_returnRun s w)
      · split at h
        · rename_i s₁ hs
          rw [hs] at hready
          obtain rfl : s₁ = s := hready rfl
          split at h
          · rename_i spec hspec
            obtain rfl := Option.some.inj h
            have hcongr := (@promoteSpare_congr
              ((s₁.updateState w .validating).updateState w .placing) s₁ rfl
              (s₁.initialFrame w spec)).1
            unfold State.enterLoop
            dsimp only
            split_ifs
            · exact .inl (jobs_failRun _ w _)
            · exact .inr ⟨record, spec, hrecord, hspec, (jobs_failRun _ w _).trans hcongr⟩
            · exact .inr ⟨record, spec, hrecord, hspec, hcongr⟩
          · obtain rfl := Option.some.inj h
            exact .inl (jobs_returnRun s₁ w)
        · rename_i s₁ _ _ hs
          rw [hs] at hdep
          obtain rfl := Option.some.inj h
          exact .inl ((jobs_returnRun s₁ w).trans hdep)
  · cases h

theorem jobs_noDecision (s : State) (w : String) (f : Frame) :
    (s.noDecision w f).jobs = s.jobs := by
  unfold State.noDecision
  dsimp only
  split_ifs
  · exact jobs_returnRun _ w
  · exact jobs_failRun _ w _
  · exact jobs_failRun _ w _
  · exact jobs_returnRun _ w

theorem jobs_place {ranking : Ranking} {now : ℚ} {execId : String}
    (h : s.place cfg w ranking now execId = some s') :
    ∃ f, s.runs.get? w = some (.lockWait f) ∧ s'.jobs = (s.promoteSpare f).1.jobs := by
  unfold State.place at h
  split at h
  · rename_i f hpc
    refine ⟨f, hpc, ?_⟩
    dsimp only at h
    split_ifs at h
    · obtain rfl := Option.some.inj h
      exact jobs_returnRun _ w
    · split at h
      · obtain rfl := Option.some.inj h
        exact jobs_noDecision _ w _
      · obtain rfl := Option.some.inj h
        exact jobs_noDecision _ w _
      · obtain rfl := Option.some.inj h
        unfold State.launch
        dsimp only
        split_ifs
        · exact jobs_retryOrFail _ w _ _ _
        · rfl
  · cases h

theorem jobs_failureResult (s : State) (w : String) (f : Frame) (d : Dispatch)
    (r : WorkloadExecutionResult) (u : PySet String) (b : Bool) (now : ℚ) :
    (s.failureResult cfg w f d r u b now).jobs = s.jobs := by
  have hsettled : (s.settleFailure d r u b).jobs = s.jobs := by
    unfold State.settleFailure
    split_ifs <;> rfl
  unfold State.failureResult
  dsimp only
  split_ifs
  · exact hsettled
  · exact (jobs_failRun _ w _).trans hsettled
  · exact hsettled
  · exact (jobs_failRun _ w _).trans hsettled
  · exact hsettled
  · exact (jobs_failRun _ w _).trans hsettled

theorem jobs_settleResult (s : State) (w : String) (f : Frame) (d : Dispatch)
    (r : WorkloadExecutionResult) (u : PySet String) (b : Bool) (now : ℚ) :
    (s.settleResult cfg w f d r u b now).jobs = s.jobs := by
  have hqueue : ∀ s₀ : State, (s₀.enqueueWorkload w).jobs = s₀.jobs := by
    intro s₀
    unfold State.enqueueWorkload
    split_ifs
    · rfl
    · split <;> rfl
  have hrecord : ∀ s₀ : State, (s₀.recordArtifacts r).jobs = s₀.jobs := by
    intro s₀
    unfold State.recordArtifacts
    split_ifs <;> rfl
  unfold State.settleResult
  split_ifs
  · unfold State.checkpointResult
    dsimp only
    rw [jobs_returnRun, hqueue]
    split <;> rfl
  · unfold State.successResult
    dsimp only
    rw [jobs_returnRun]
    exact hrecord _
  · exact jobs_failureResult s w f d r u b now

theorem jobs_handleReply (s : State) (w : String) (f : Frame) (d : Dispatch) (now : ℚ)
    (reply : Reply) : (s.handleReply cfg w f d now reply).jobs = s.jobs := by
  cases reply with
  | result r u t =>
    show (s.handleResult cfg w f d r u t now).jobs = s.jobs
    unfold State.handleResult
    dsimp only
    split_ifs
    · exact jobs_returnRun _ w
    · split
      · rfl
      · exact jobs_settleResult s w f d _ _ true now
    · exact jobs_settleResult s w f d _ u false now
  | submitUnavailable m => exact jobs_retryOrFail _ w _ _ _
  | recordLost m => exact jobs_retryOrFail _ w _ _ _
  | otherException m =>
    have hsettled : ((s.recordFailures cfg d.workerIds now).settleException d m).jobs = s.jobs := by
      unfold State.settleException
      split_ifs <;> rfl
    show (s.handleOtherException cfg w f d m now).jobs = s.jobs
    unfold State.handleOtherException
    dsimp only
    split_ifs <;> exact hsettled

/-! ## All steps -/

/-- A frame with which a step promotes a spare worker: the one that waits for the placement lock, or
the one with which a run is about to enter its loop. -/
def Promotes (s : State) (a : Action) (w : String) (f : Frame) : Prop :=
  (s.runs.get? w = some (.lockWait f) ∧ ∃ ranking now execId, a = .place w ranking now execId) ∨
    ∃ r spec, a = .startRun w ∧ s.workloads.get? w = some r ∧
      s.specWithDependencyOutputs r.spec r.spec.dependsOn = some spec ∧ f = s.initialFrame w spec

/-- What a step does to the record of a job. -/
inductive JobStep (s : State) (a : Action) (s' : State) (j : String) : Prop
  | same (hjob : s'.jobs.get? j = s.jobs.get? j)
  | created (job job' : JobRecord) (ha : a = .createJob job) (hj : job.jobId = j)
      (hnew : s.jobs.get? j = none) (hok : job.create = .ok job')
      (hjob : s'.jobs.get? j = some job')
  | promoted (w : String) (f : Frame) (hf : Promotes s a w f)
      (hjobs : s'.jobs = (s.promoteSpare f).1.jobs)
  | restarted (ha : a.isRestart = true)
      (hjob : s'.jobs.get? j = (s.jobs.get? j).bind StateStore.reloadJob)

theorem jobs_foldl_handleWorkerLost (s : State) (l : List String) :
    (l.foldl State.handleWorkerLost s).jobs = s.jobs := by
  induction l generalizing s with
  | nil => rfl
  | cons x l ih => exact ih (s.handleWorkerLost x)

theorem jobs_submitWorkload (s : State) (spec : WorkloadSpec) :
    (s.submitWorkload cfg spec).jobs = s.jobs := by
  have hqueue : ∀ (s₀ : State) w, (s₀.enqueueWorkload w).jobs = s₀.jobs := by
    intro s₀ w
    unfold State.enqueueWorkload
    split_ifs
    · rfl
    · split <;> rfl
  unfold State.submitWorkload State.addWorkload
  cases s.workloads.get? spec.workloadId with
  | none => exact hqueue _ _
  | some existing =>
    dsimp only
    split_ifs
    · exact hqueue s _
    · rfl

/-- **What a step can do to the record of a job.** -/
theorem step_jobs (h : step cfg s a = some s') (j : String) : JobStep s a s' j := by
  have hsame : s'.jobs = s.jobs → JobStep s a s' j := fun he => .same (by rw [he])
  cases a with
  | submitWorkload spec =>
    obtain rfl := Option.some.inj h
    exact hsame (jobs_submitWorkload s spec)
  | createJob job =>
    obtain rfl := Option.some.inj h
    unfold State.createJob at hsame ⊢
    cases hold : s.jobs.get? job.jobId with
    | some old =>
      rw [hold] at hsame
      exact hsame rfl
    | none =>
      cases hok : job.create with
      | error e =>
        rw [hold, hok] at hsame
        exact hsame rfl
      | ok job' =>
        have hid : job'.jobId = job.jobId := by rw [(JobRecord.create_eq_ok_iff.1 hok).2]
        by_cases hj : job.jobId = j
        · refine .created job job' rfl hj (hj ▸ hold) hok ?_
          rw [← hj, ← hid]
          rw [Dict.get?_set, if_pos rfl]
        · refine .same ?_
          dsimp only
          rw [Dict.get?_set, if_neg]
          rw [hid]
          exact fun he => hj he.symm
  | admissionPass order =>
    obtain ⟨ws, q, p, r, rfl⟩ := admissionPass_writes h
    exact hsame rfl
  | startRun w =>
    rcases jobs_startRun h with he | ⟨r, spec, hr, hspec, he⟩
    · exact hsame he
    · exact .promoted w _ (.inr ⟨r, spec, rfl, hr, hspec, rfl⟩) he
  | place w ranking now execId =>
    obtain ⟨f, hpc, he⟩ := jobs_place h
    exact .promoted w f (.inl ⟨hpc, ranking, now, execId, rfl⟩) he
  | callEvent w i event =>
    obtain ⟨f, d, c, phase, -, rfl⟩ := advanceCall_cases h
    exact hsame rfl
  | resume w now =>
    obtain ⟨f, d, reply, -, -, rfl, -⟩ := resume_cases h
    exact hsame (jobs_handleReply s w f d now reply)
  | drainResume w now =>
    refine hsame ?_
    simp only [step, State.drainResume] at h
    split at h
    · split_ifs at h
      obtain rfl := Option.some.inj h
      exact jobs_settleResult _ w _ _ _ _ true now
    · cases h
  | finishRun w =>
    refine hsame ?_
    simp only [step, State.finishRun] at h
    split at h
    · obtain rfl := Option.some.inj h
      rfl
    · cases h
  | cancelStart w =>
    obtain rfl := Option.some.inj h
    refine hsame ?_
    unfold State.cancelStart
    split
    · rfl
    · dsimp only
      split_ifs <;> rfl
  | cancelFinish w =>
    refine hsame ?_
    simp only [step, State.cancelFinish] at h
    split_ifs at h
    obtain rfl := Option.some.inj h
    rfl
  | evictionPass now =>
    obtain rfl := Option.some.inj h
    exact hsame (jobs_foldl_handleWorkerLost _ _)
  | drainStart x =>
    obtain rfl := Option.some.inj h
    refine hsame ?_
    unfold State.drainStart
    dsimp only
    split_ifs <;> rfl
  | drainFinish i =>
    obtain ⟨ids, -, rfl⟩ := Option.map_eq_some_iff.1 h
    exact hsame rfl
  | steal i =>
    obtain ⟨⟨idle, jobId⟩, -, rfl⟩ := Option.map_eq_some_iff.1 h
    refine hsame ?_
    unfold State.maybeSpeculativeStealStraggler
    dsimp only
    split_ifs
    · split <;> rfl
    · rfl
  | clone i now =>
    obtain ⟨⟨w, x⟩, -, rfl⟩ := Option.map_eq_some_iff.1 h
    refine hsame ?_
    dsimp only
    split
    · rename_i hs
      obtain rfl := executeSpeculativeAttempt_ok hs
      rfl
    · rfl
  | restart now =>
    obtain rfl := Option.some.inj h
    exact .restarted rfl (Dict.get?_filterMapValues ..)
  | _ =>
    obtain rfl := Option.some.inj h
    exact hsame rfl

end Aidars.Orchestrator
