import Aidars.Orchestrator.Cancellation
import Aidars.Orchestrator.Specs

/-!
# The admission queue

The admission loop, the runs that end and the cancellations change `queued` and `processing` in
small steps. `QueueInv` is the invariant that they keep together: the workloads that are being
processed are those with a run, they are at most as many as the dispatch tasks, and a workload that
waits is queued or being processed. A segment of a run adds to the queue and takes nothing from it
(`KeepsQueue`), and a run that has ended has left `processing`, with its workload not waiting.
-/

namespace Aidars.Orchestrator

variable {cfg : Config} {s s' s₀ : State} {w v : String} {a : Action} {f : Frame} {d : Dispatch}

/-! ## Segments -/

/-- A segment of the run of `w` keeps the queue; a run that has ended has left `processing`, and its
workload does not wait; the workload of a run that is about to leave is queued. -/
structure KeepsQueue (w : String) (s s' : State) : Prop where
  queued : ∀ v ∈ s.queued, v ∈ s'.queued
  ended : s'.runs.get? w = none → w ∉ s'.processing ∧ s'.stateOf w ≠ some .submitted
  leaving : s'.runs.get? w = some .finishing → w ∈ s'.queued

namespace KeepsQueue

theorem returnRun (hq : s₀.queued = s.queued) : KeepsQueue w s (s₀.returnRun w) := by
  unfold State.returnRun
  split_ifs with hst
  · refine ⟨fun v hv => ?_, fun hnone => ?_, fun _ => PySet.mem_insert.2 (.inl rfl)⟩
    · rw [hq]
      exact PySet.mem_insert.2 (.inr hv)
    · simp at hnone
  · refine ⟨fun v hv => hq ▸ hv, fun _ => ⟨by simp, hst⟩, fun hpc => ?_⟩
    simp at hpc

theorem setPc {pc : Pc} (hpc : pc ≠ .finishing) (hq : s₀.queued = s.queued) :
    KeepsQueue w s (s₀.setPc w pc) := by
  refine ⟨fun v hv => hq ▸ hv, fun hnone => ?_, fun hfin => ?_⟩
  · rw [runs_setPc] at hnone
    cases hnone
  · rw [runs_setPc] at hfin
    exact absurd (Option.some.inj hfin) hpc

theorem nextAttempt (hq : s₀.queued = s.queued) : KeepsQueue w s (s₀.nextAttempt w f) :=
  setPc nofun hq

theorem failRun {m : Option String} (hq : s₀.queued = s.queued) :
    KeepsQueue w s (s₀.failRun w m) := returnRun hq

theorem retryOrFail {c : Option FailureCategory} {m : String} (hq : s₀.queued = s.queued) :
    KeepsQueue w s (s₀.retryOrFail cfg w f c m) := by
  unfold State.retryOrFail
  split_ifs
  · exact nextAttempt hq
  · exact failRun hq

end KeepsQueue

open KeepsQueue

theorem queued_promoteSpare (s : State) (f : Frame) :
    (s.promoteSpare f).1.queued = s.queued := by
  unfold State.promoteSpare
  split
  · split
    · split_ifs <;> rfl
    · rfl
  · rfl

theorem queued_dependencyState (s : State) (w : String) (deps : List String) :
    (s.dependencyState w deps).1.queued = s.queued := by
  rcases dependencyState_cases s w deps with h | ⟨-, m, h⟩ <;> rw [h]
  rfl

theorem enterLoop_queue (hq : s₀.queued = s.queued) : KeepsQueue w s (s₀.enterLoop cfg w f) := by
  unfold State.enterLoop
  dsimp only
  have hp : (((s₀.updateState w .validating).updateState w .placing).promoteSpare f).1.queued =
      s.queued := (queued_promoteSpare _ f).trans hq
  split_ifs
  · exact failRun hq
  · exact failRun hp
  · exact nextAttempt hp

theorem startRun_queue (h : s.startRun cfg w = some s') : KeepsQueue w s s' := by
  unfold State.startRun at h
  split at h
  · split at h
    · obtain rfl := Option.some.inj h
      exact returnRun rfl
    · rename_i record _
      have hdep := queued_dependencyState s w record.spec.dependsOn
      split_ifs at h
      · obtain rfl := Option.some.inj h
        exact returnRun rfl
      · split at h
        · rename_i s₁ hs
          rw [hs] at hdep
          split at h
          · obtain rfl := Option.some.inj h
            exact enterLoop_queue hdep
          · obtain rfl := Option.some.inj h
            exact returnRun hdep
        · rename_i s₁ _ _ hs
          rw [hs] at hdep
          obtain rfl := Option.some.inj h
          exact returnRun hdep
  · cases h

theorem noDecision_queue (hq : s₀.queued = s.queued) : KeepsQueue w s (s₀.noDecision w f) := by
  unfold State.noDecision
  dsimp only
  split_ifs
  · exact returnRun hq
  · exact failRun hq
  · exact failRun hq
  · exact returnRun hq

theorem place_queue {ranking : Ranking} {now : ℚ} {execId : String}
    (h : s.place cfg w ranking now execId = some s') : KeepsQueue w s s' := by
  unfold State.place at h
  split at h
  · rename_i f₀ _
    dsimp only at h
    have hp := queued_promoteSpare s f₀
    split_ifs at h
    · obtain rfl := Option.some.inj h
      exact returnRun hp
    · split at h
      · obtain rfl := Option.some.inj h
        exact noDecision_queue hp
      · obtain rfl := Option.some.inj h
        exact noDecision_queue hp
      · obtain rfl := Option.some.inj h
        unfold State.launch
        dsimp only
        split_ifs
        · exact retryOrFail hp
        · exact setPc nofun hp
  · cases h

theorem checkpointResult_queue (s : State) (w : String) (f : Frame) (d : Dispatch)
    (r : WorkloadExecutionResult) : KeepsQueue w s (s.checkpointResult w f d r) := by
  have henqueue : ∀ s₁ : State, s₁.queued = s.queued →
      KeepsQueue w s ((s₁.enqueueWorkload w).returnRun w) := by
    intro s₁ hq
    have hmono : ∀ v ∈ s.queued, v ∈ (s₁.enqueueWorkload w).queued := by
      intro v hv
      rw [← hq] at hv
      unfold State.enqueueWorkload
      split_ifs
      · exact hv
      · split
        all_goals first
          | exact hv
          | exact PySet.mem_insert.2 (.inr hv)
    have hret : KeepsQueue w (s₁.enqueueWorkload w) ((s₁.enqueueWorkload w).returnRun w) :=
      returnRun rfl
    exact ⟨fun v hv => hret.queued v (hmono v hv), hret.ended, hret.leaving⟩
  unfold State.checkpointResult
  dsimp only
  apply henqueue
  split <;> rfl

theorem successResult_queue (s : State) (w : String) (f : Frame) (d : Dispatch)
    (r : WorkloadExecutionResult) : KeepsQueue w s (s.successResult w f d r) := by
  have hrecord : ∀ s₁ : State, (s₁.recordArtifacts r).queued = s₁.queued := by
    intro s₁
    unfold State.recordArtifacts
    split_ifs <;> rfl
  unfold State.successResult
  exact returnRun (hrecord _)

theorem failureResult_queue (r : WorkloadExecutionResult) (u : PySet String) (b : Bool) (now : ℚ)
    (hq : s₀.queued = s.queued) : KeepsQueue w s (s₀.failureResult cfg w f d r u b now) := by
  have hsettle : (s₀.settleFailure d r u b).queued = s.queued := by
    unfold State.settleFailure
    split_ifs <;> exact hq
  unfold State.failureResult
  dsimp only
  split_ifs
  all_goals first
    | exact nextAttempt hsettle
    | exact failRun hsettle

theorem lostGroupResult_queue (r : WorkloadExecutionResult) (t : PySet String) (now : ℚ)
    (hr : r.wasCheckpointed = false) (hq : s₀.queued = s.queued) :
    KeepsQueue w s (s₀.lostGroupResult cfg w f d r t now) := by
  unfold State.lostGroupResult State.settleResult
  dsimp only
  rw [if_neg (by simp [hr]), if_neg (by simp)]
  exact failureResult_queue _ _ _ now hq

theorem handleReply_queue (s : State) (w : String) (f : Frame) (d : Dispatch) (now : ℚ)
    (reply : Reply) : KeepsQueue w s (s.handleReply cfg w f d now reply) := by
  cases reply with
  | result r u t =>
    show KeepsQueue w s (s.handleResult cfg w f d r u t now)
    unfold State.handleResult
    dsimp only
    split_ifs with hcancelled hgroup
    · exact returnRun rfl
    · have hr := wasCheckpointed_rejectGroupCheckpoint (r := r) hgroup.1
      split
      · exact setPc nofun rfl
      · exact lostGroupResult_queue _ t now hr rfl
    · unfold State.settleResult
      split_ifs
      · exact checkpointResult_queue s w f d _
      · exact successResult_queue s w f d _
      · exact failureResult_queue _ u false now rfl
  | recordLost m => exact retryOrFail rfl
  | submitUnavailable m => exact retryOrFail rfl
  | otherException m =>
    have hsettle : ((s.recordFailures cfg d.workerIds now).settleException d m).queued =
        s.queued := by
      unfold State.settleException
      split_ifs <;> rfl
    show KeepsQueue w s (s.handleOtherException cfg w f d m now)
    unfold State.handleOtherException
    dsimp only
    split_ifs
    · exact nextAttempt hsettle
    · exact nextAttempt hsettle

/-- **A segment of a run keeps the queue.** -/
theorem segment_queue (hplain : DrainsPlain s) (h : step cfg s a = some s')
    (hseg : a.segmentOf = some w) (hfinish : a ≠ .finishRun w) : KeepsQueue w s s' := by
  cases segment_of_eq hseg with
  | startRun => exact startRun_queue h
  | place ranking now execId => exact place_queue h
  | callEvent i event =>
    obtain ⟨f, d, c, phase, -, rfl⟩ := advanceCall_cases h
    exact setPc nofun rfl
  | resume now =>
    obtain ⟨f, d, reply, -, -, rfl, -⟩ := resume_cases h
    exact handleReply_queue s w f d now reply
  | drainResume now =>
    simp only [step, State.drainResume] at h
    split at h
    · rename_i f d r t hpc
      split_ifs at h
      obtain rfl := Option.some.inj h
      exact lostGroupResult_queue r t now (hplain w f d r t hpc) rfl
    · cases h
  | finishRun =>
    exact absurd rfl hfinish

/-! ## Steps that are not segments -/

theorem length_insert_le (u : PySet String) (x : String) :
    (u.insert x).toList.length ≤ u.toList.length + 1 := by
  show (List.insert x u.toList).length ≤ _
  rw [List.length_insert]
  split_ifs <;> omega

theorem length_foldl_startTask_le (s : State) (l : List String) :
    (l.foldl State.startTask s).processing.toList.length ≤
      s.processing.toList.length + l.length := by
  induction l generalizing s with
  | nil => exact Nat.le_refl _
  | cons w l ih =>
    have hrest := ih (s.startTask w)
    have hfirst : (s.startTask w).processing.toList.length ≤ s.processing.toList.length + 1 :=
      length_insert_le s.processing w
    simp only [List.foldl_cons, List.length_cons]
    omega

theorem queued_foldl_startTask (s : State) (l : List String) :
    ∀ v ∈ s.queued, v ∈ (l.foldl State.startTask s).queued ∨ v ∈ l := by
  induction l generalizing s with
  | nil => exact fun v hv => .inl hv
  | cons w l ih =>
    intro v hv
    by_cases hw : v = w
    · exact .inr (hw ▸ List.mem_cons_self)
    · have hstay : v ∈ (s.startTask w).queued := PySet.mem_erase.2 ⟨hw, hv⟩
      exact (ih (s.startTask w) v hstay).imp_right (List.mem_cons_of_mem w)

/-- A step outside the runs keeps a waiting workload queued or starts it, and starts no more
workloads than there are free tasks. -/
structure PassesQueue (cfg : Config) (s s' : State) : Prop where
  queued : ∀ v ∈ s.queued, s'.stateOf v = some .submitted →
    v ∈ s'.queued ∨ (v ∉ s.processing ∧ v ∈ s'.processing)
  bound : s'.processing.toList.length ≤
    max s.processing.toList.length (max 1 cfg.maxDispatchTasks)

theorem PassesQueue.of_eq (hq : s'.queued = s.queued) (hp : s'.processing = s.processing) :
    PassesQueue cfg s s' := by
  refine ⟨fun v hv _ => .inl (hq ▸ hv), ?_⟩
  rw [hp]
  omega

theorem admissionPass_queue {order : List String} (h : s.admissionPass cfg order = some s') :
    PassesQueue cfg s s' := by
  have hinit : CheckInv s [] (s, []) :=
    ⟨⟨rfl, rfl, rfl, rfl, rfl, rfl⟩, fun _ => .inl rfl, fun _ hv => hv⟩
  have hcheck := hinit.foldl s.pendingIds (s.queued.nodup.filter _)
  have hqueued : (s.pendingIds.foldl State.checkReady (s, [])).1.queued = s.queued := by
    obtain ⟨ws, hws⟩ := foldl_checkReady_writes s.pendingIds (s, [])
    rw [hws]
  unfold State.admissionPass at h
  generalize s.pendingIds.foldl State.checkReady (s, []) = acc at h hcheck hqueued
  obtain ⟨s₁, ready⟩ := acc
  dsimp only at h hqueued
  split_ifs at h with hperm
  have hready : ∀ v ∈ order.take (max 1 cfg.maxDispatchTasks - s₁.processing.toList.length),
      v ∉ s.processing := by
    intro v hv
    have hmem := (List.isPerm_iff.1 hperm).mem_iff.1 (List.mem_of_mem_take hv)
    obtain ⟨-, hpending⟩ := List.mem_filter.1 (hcheck.ready v hmem)
    rw [Bool.and_eq_true, decide_eq_true_iff, decide_eq_true_iff] at hpending
    exact hpending.2
  have htaken :=
    List.length_take_le (max 1 cfg.maxDispatchTasks - s₁.processing.toList.length) order
  generalize order.take (max 1 cfg.maxDispatchTasks - s₁.processing.toList.length) = started
    at h htaken hready
  have hlen := length_foldl_startTask_le { s₁ with
    queued := PySet.ofList (s₁.queued.toList.filter fun w => s₁.stateOf w =
      some .submitted) } started
  have hkeep := queued_foldl_startTask { s₁ with
    queued := PySet.ofList (s₁.queued.toList.filter fun w => s₁.stateOf w =
      some .submitted) } started
  obtain ⟨-, hw, -, -, -, hv⟩ := foldl_startTask { s₁ with
    queued := PySet.ofList (s₁.queued.toList.filter fun w => s₁.stateOf w =
      some .submitted) } started
  rw [Option.some.inj h] at hw hv hlen hkeep
  refine ⟨fun v hmem hst => ?_, ?_⟩
  · have hst₁ : s₁.stateOf v = some .submitted := by
      rw [State.stateOf, hw] at hst
      exact hst
    have hfiltered : v ∈ PySet.ofList
        (s₁.queued.toList.filter fun w => s₁.stateOf w = some .submitted) := by
      rw [PySet.mem_ofList, List.mem_filter, hqueued]
      exact ⟨hmem, by simp [hst₁]⟩
    refine (hkeep v hfiltered).imp_right fun hstarted => ?_
    exact ⟨hready v hstarted, (hv v).2.2 (.inl hstarted)⟩
  · have hproc : s₁.processing = s.processing := hcheck.tasks.processing
    rw [hproc] at hlen htaken
    omega

theorem mem_queued_enqueueWorkload (hv : v ∈ s.queued) : v ∈ (s.enqueueWorkload w).queued := by
  unfold State.enqueueWorkload
  split_ifs
  · exact hv
  · split
    all_goals first
      | exact hv
      | exact PySet.mem_insert.2 (.inr hv)

theorem queued_submitWorkload (s : State) (spec : WorkloadSpec) (hv : v ∈ s.queued) :
    v ∈ (s.submitWorkload cfg spec).queued := by
  unfold State.submitWorkload
  split
  · rename_i s₁ hadd
    have hq : s₁.queued = s.queued := by
      unfold State.addWorkload at hadd
      split at hadd
      · split_ifs at hadd
        rw [← Option.some.inj hadd]
      · rw [← Option.some.inj hadd]
    apply mem_queued_enqueueWorkload
    rw [hq]
    exact hv
  · exact hv

/-- A workload that is submitted is queued, unless it is being processed. -/
theorem submitted_queued {spec : WorkloadSpec} (hnew : s.outcomeOf v = none)
    (hout : (s.submitWorkload cfg spec).outcomeOf v = some (.submitted, none)) :
    v ∈ (s.submitWorkload cfg spec).queued ∨ v ∈ (s.submitWorkload cfg spec).processing := by
  unfold State.submitWorkload State.addWorkload at hout ⊢
  cases hrecord : s.workloads.get? spec.workloadId with
  | some existing =>
    -- the workloads are as before, so `v` is not registered
    rw [hrecord] at hout
    dsimp only at hout
    split_ifs at hout
    · have hsame : (s.enqueueWorkload spec.workloadId).outcomeOf v = s.outcomeOf v := by
        rw [State.outcomeOf, State.outcomeOf, (enqueueWorkload_cases s spec.workloadId).2]
      dsimp only at hout
      rw [hsame, hnew] at hout
      cases hout
    · dsimp only at hout
      rw [hnew] at hout
      cases hout
  | none =>
    rw [hrecord] at hout
    dsimp only at hout ⊢
    have hv : v = spec.workloadId := by
      rw [State.outcomeOf, (enqueueWorkload_cases _ spec.workloadId).2, Dict.get?_set] at hout
      split_ifs at hout with hv
      · exact hv
      · rw [State.outcomeOf] at hnew
        rw [hnew] at hout
        cases hout
    subst hv
    unfold State.enqueueWorkload
    split_ifs with hproc
    · exact .inr hproc
    · have hst : State.stateOf { s with
          workloads := s.workloads.set spec.workloadId { spec } } spec.workloadId =
          some .submitted := by
        simp [State.stateOf]
      rw [hst]
      exact .inl (PySet.mem_insert.2 (.inl rfl))

theorem queued_finishCancel (hv : v ∈ s.queued)
    (hst : (s.finishCancel w).stateOf v = some .submitted) :
    v ∈ (s.finishCancel w).queued := by
  refine PySet.mem_erase.2 ⟨?_, hv⟩
  rintro rfl
  rw [stateOf_eq, outcomeOf_finishCancel, if_pos rfl] at hst
  cases h : s.outcomeOf v with
  | none => rw [h] at hst; cases hst
  | some o => rw [h] at hst; cases hst

/-- **What a step that is no segment does to the queue and to `processing`.** -/
theorem other_queue (h : step cfg s a = some s') (hseg : a.segmentOf = none)
    (hrestart : a.isRestart = false) : PassesQueue cfg s s' := by
  cases a with
  | submitWorkload spec =>
    obtain rfl := Option.some.inj h
    refine ⟨fun v hv _ => .inl (queued_submitWorkload s spec hv), ?_⟩
    rw [(submitWorkload_cases s spec).1.processing]
    omega
  | createJob job =>
    obtain rfl := Option.some.inj h
    unfold State.createJob
    split <;> exact .of_eq rfl rfl
  | admissionPass order => exact admissionPass_queue h
  | admissionTimeout =>
    obtain rfl := Option.some.inj h
    refine ⟨fun v hv _ => .inl (PySet.mem_foldl_insert.2 (.inl hv)), ?_⟩
    show s.processing.toList.length ≤ _
    omega
  | cancelStart w =>
    obtain rfl := Option.some.inj h
    unfold State.cancelStart
    split
    · exact .of_eq rfl rfl
    · dsimp only
      split_ifs
      · exact .of_eq rfl rfl
      · exact .of_eq rfl rfl
      · refine ⟨fun v hv hst => .inl (queued_finishCancel hv hst), ?_⟩
        show s.processing.toList.length ≤ _
        omega
  | cancelFinish w =>
    simp only [step, State.cancelFinish] at h
    split_ifs at h
    obtain rfl := Option.some.inj h
    refine ⟨fun v hv hst => .inl (queued_finishCancel hv hst), ?_⟩
    show s.processing.toList.length ≤ _
    omega
  | workerLost x =>
    obtain rfl := Option.some.inj h
    exact .of_eq rfl rfl
  | evictionPass now =>
    obtain rfl := Option.some.inj h
    have hq : ∀ (l : List String) (s₁ : State), (l.foldl State.handleWorkerLost s₁).queued =
        s₁.queued := by
      intro l
      induction l with
      | nil => exact fun _ => rfl
      | cons x l ih => exact fun s₁ => ih (s₁.handleWorkerLost x)
    exact .of_eq (hq _ _) (foldl_handleWorkerLost _ _).2.2.1
  | drainStart x =>
    obtain rfl := Option.some.inj h
    unfold State.drainStart
    dsimp only
    split_ifs <;> exact .of_eq rfl rfl
  | drainFinish i =>
    obtain ⟨ids, -, rfl⟩ := Option.map_eq_some_iff.1 h
    exact .of_eq rfl rfl
  | registryOp op =>
    obtain rfl := Option.some.inj h
    exact .of_eq rfl rfl
  | steal i =>
    obtain ⟨⟨idle, jobId⟩, -, rfl⟩ := Option.map_eq_some_iff.1 h
    unfold State.maybeSpeculativeStealStraggler
    dsimp only
    split_ifs
    · split <;> exact .of_eq rfl rfl
    · exact .of_eq rfl rfl
  | clone i now =>
    obtain ⟨⟨w, x⟩, -, rfl⟩ := Option.map_eq_some_iff.1 h
    dsimp only
    split
    · rename_i hs
      obtain rfl := executeSpeculativeAttempt_ok hs
      exact .of_eq rfl rfl
    · exact .of_eq rfl rfl
  | restart now => cases hrestart
  | _ => cases hseg

/-! ## The invariant -/

/-- The workloads with a run are those that are being processed, they are at most as many as the
dispatch tasks, and a workload that waits is queued or being processed. One whose run is about to
leave is queued. -/
structure QueueInv (cfg : Config) (s : State) : Prop where
  plain : DrainsPlain s
  runs : ∀ w, s.runs.get? w ≠ none ↔ w ∈ s.processing
  bound : s.processing.toList.length ≤ max 1 cfg.maxDispatchTasks
  registered : ∀ w, s.runs.get? w ≠ none → (s.specOf w).isSome = true
  waiting : ∀ w, s.stateOf w = some .submitted → w ∈ s.queued ∨ w ∈ s.processing
  leaving : ∀ w, s.runs.get? w = some .finishing → s.stateOf w = some .submitted → w ∈ s.queued

theorem length_le_of_subset {u u' : PySet String} (h : ∀ x ∈ u', x ∈ u) :
    u'.toList.length ≤ u.toList.length :=
  (List.subperm_of_subset u'.nodup fun x hx => h x hx).length_le

/-- A segment adds nothing to `processing`. -/
theorem processing_segment (hs : RunsProcessing s) (h : step cfg s a = some s')
    (hseg : a.segmentOf = some w) : ∀ v ∈ s'.processing, v ∈ s.processing := by
  intro v hv
  by_cases hvw : v = w
  · rw [hvw]
    exact hs w (segment_runs h hseg)
  · exact ((segment_frame h hseg).processing v hvw).1 hv

theorem step_registered (hplain : DrainsPlain s) (hrestart : a.isRestart = false)
    (h : step cfg s a = some s') : ((s.specOf w).isSome = true → (s'.specOf w).isSome = true) ∧
      (s.specOf w = none → (s'.specOf w).isSome = true → ∃ spec, a = .submitWorkload spec) := by
  cases step_specOf hplain hrestart h w with
  | same he =>
    rw [he]
    refine ⟨id, fun hnone hsome => ?_⟩
    rw [hnone] at hsome
    cases hsome
  | submitted spec ha hv hnew he =>
    rw [he]
    exact ⟨fun _ => rfl, fun _ _ => ⟨spec, ha⟩⟩
  | checkpoint u now f d r hash ha hpc hv hc hhash hattempts hret he =>
    rw [he, Option.isSome_map]
    refine ⟨id, fun hnone hsome => ?_⟩
    rw [hnone] at hsome
    cases hsome

theorem specOf_isSome_of_stateOf {x : WorkloadState} (h : s.stateOf w = some x) :
    (s.specOf w).isSome = true := by
  obtain ⟨r, hr, -⟩ := Option.map_eq_some_iff.1 h
  rw [State.specOf, hr]
  rfl

theorem specOf_eq_none_iff : s.specOf w = none ↔ s.outcomeOf w = none := by
  rw [State.specOf, State.outcomeOf, Option.map_eq_none_iff, Option.map_eq_none_iff]

theorem stateOf_congr (h : s'.outcomeOf w = s.outcomeOf w) : s'.stateOf w = s.stateOf w := by
  rw [stateOf_eq, stateOf_eq, h]

theorem queueInv_finishRun (hs : QueueInv cfg s) (h : s.finishRun w = some s') :
    QueueInv cfg s' := by
  have hframe := finishRun_frame h
  have hplain : DrainsPlain s' := by
    intro v f d r t hpc
    by_cases hv : v = w
    · rw [hv, (finishRun_cases h).2.1] at hpc
      cases hpc
    · exact hs.plain v f d r t (hframe.runs v hv ▸ hpc)
  unfold State.finishRun at h
  split at h
  · rename_i hfinishing
    obtain rfl := Option.some.inj h
    refine ⟨hplain, fun v => ?_, ?_, fun v hne => ?_, fun v hst => ?_, fun v hpc hst => ?_⟩
    · rw [Dict.get?_erase, PySet.mem_erase]
      split_ifs with hv
      · simp [hv]
      · rw [hs.runs v]
        exact ⟨fun hmem => ⟨hv, hmem⟩, fun hmem => hmem.2⟩
    · refine (length_le_of_subset fun x hx => ?_).trans hs.bound
      exact (PySet.mem_erase.1 hx).2
    · rw [Dict.get?_erase] at hne
      split_ifs at hne
      · exact absurd rfl hne
      · exact hs.registered v hne
    · by_cases hv : v = w
      · subst hv
        exact .inl (hs.leaving v hfinishing hst)
      · exact (hs.waiting v hst).imp_right fun hmem => PySet.mem_erase.2 ⟨hv, hmem⟩
    · rw [Dict.get?_erase] at hpc
      split_ifs at hpc
      exact hs.leaving v hpc hst
  · cases h

/-- The invariant is kept by a segment of the run of a workload. -/
theorem queueInv_segment (hs : QueueInv cfg s) (h : step cfg s a = some s')
    (hseg : a.segmentOf = some w) : QueueInv cfg s' := by
  by_cases hfinish : a = .finishRun w
  · subst hfinish
    exact queueInv_finishRun hs h
  have hruns : RunsProcessing s := fun v hv => (hs.runs v).1 hv
  have hframe := segment_frame h hseg
  have hqueue := segment_queue hs.plain h hseg hfinish
  have hmem : w ∈ s.processing := hruns w (segment_runs h hseg)
  -- the run goes on and its workload is being processed, or it has ended
  have hown : s'.runs.get? w ≠ none ↔ w ∈ s'.processing := by
    constructor
    · exact fun hne => (hframe.own.resolve_left hne).2 hmem
    · exact fun hproc hnone => (hqueue.ended hnone).1 hproc
  have hrestart : a.isRestart = false := by
    cases a <;> first | rfl | cases hseg
  refine ⟨step_drainsPlain hs.plain h, fun v => ?_, ?_, fun v hne => ?_, fun v hst => ?_,
    fun v hpc hst => ?_⟩
  · by_cases hv : v = w
    · rw [hv]
      exact hown
    · rw [hframe.runs v hv, hframe.processing v hv]
      exact hs.runs v
  · exact (length_le_of_subset (processing_segment hruns h hseg)).trans hs.bound
  · have hold : s.runs.get? v ≠ none := by
      by_cases hv : v = w
      · rw [hv]
        exact segment_runs h hseg
      · rw [← hframe.runs v hv]
        exact hne
    exact (step_registered hs.plain hrestart h).1 (hs.registered v hold)
  · by_cases hv : v = w
    · subst hv
      by_cases hnone : s'.runs.get? v = none
      · exact absurd hst (hqueue.ended hnone).2
      · exact .inr (hown.1 hnone)
    · rw [stateOf_congr (hframe.outcome v hv)] at hst
      exact (hs.waiting v hst).imp (hqueue.queued v) (hframe.processing v hv).2
  · by_cases hv : v = w
    · subst hv
      exact hqueue.leaving hpc
    · rw [stateOf_congr (hframe.outcome v hv)] at hst
      rw [hframe.runs v hv] at hpc
      exact hqueue.queued v (hs.leaving v hpc hst)

/-- A workload that waits after a step outside the runs waited before, or is new. -/
theorem waiting_foreign (hf : Foreign w s a s') (hst : s'.stateOf w = some .submitted) :
    s.stateOf w = some .submitted ∨ s.outcomeOf w = none := by
  cases hf with
  | kept hrun hout => exact .inl (stateOf_congr hout ▸ hst)
  | submitted hrun hnew hout => exact .inr hnew
  | admitted hp hproc hpc hout => exact .inl (stateOf_congr hout ▸ hst)
  | blocked hp hrun hout => exact .inl hp.1
  | cancelled st hst' hrun hfrom hout =>
    rw [stateOf_eq, hout] at hst
    cases ho : s.outcomeOf w with
    | none => exact .inr rfl
    | some o =>
      rw [ho] at hst
      obtain rfl : st = .submitted := Option.some.inj hst
      cases hst'

theorem queueInv_step (hs : QueueInv cfg s) (h : step cfg s a = some s') : QueueInv cfg s' := by
  cases hrestart : a.isRestart with
  | true =>
    obtain ⟨now, rfl, rfl⟩ := restart_of_step hrestart h
    refine ⟨step_drainsPlain hs.plain h, fun w => ?_, Nat.zero_le _,
      fun w hne => absurd rfl hne, fun w hst => .inl ?_, fun w hpc => by cases hpc⟩
    · exact ⟨fun hne => absurd rfl hne, fun hmem => absurd hmem (PySet.notMem_empty w)⟩
    · obtain ⟨r, hr, hsub⟩ := Option.map_eq_some_iff.1 hst
      refine PySet.mem_ofList.2 (List.mem_filter.2 ⟨Dict.mem_keys.2 ⟨r, hr⟩, ?_⟩)
      have hlive : (some r).any (fun r => !r.state.isTerminal) = true := by
        rw [Option.any_some, hsub]
        rfl
      rw [← hr] at hlive
      exact hlive
  | false =>
    cases hseg : a.segmentOf with
    | some w => exact queueInv_segment hs h hseg
    | none =>
      have hforeign : ∀ w, Foreign w s a s' := fun w =>
        step_foreign h (by rw [hseg]; exact nofun) hrestart
      have hpass := other_queue h hseg hrestart
      have hruns : ∀ w, s'.runs.get? w ≠ none ↔ w ∈ s'.processing := by
        intro w
        have hkept : SameRun w s s' → (s'.runs.get? w ≠ none ↔ w ∈ s'.processing) := by
          intro hrun
          rw [hrun.runs, hrun.processing]
          exact hs.runs w
        cases hforeign w with
        | kept hrun => exact hkept hrun
        | submitted hrun => exact hkept hrun
        | admitted hp hproc hpc => simp [hpc, hproc]
        | blocked hp hrun => exact hkept hrun
        | cancelled st hst hrun => exact hkept hrun
      -- what is being processed stays so
      have hstays : ∀ w, w ∈ s.processing → w ∈ s'.processing := by
        intro w hw
        cases hforeign w with
        | kept hrun => exact hrun.processing.2 hw
        | submitted hrun => exact hrun.processing.2 hw
        | admitted hp hproc => exact hproc
        | blocked hp hrun => exact hrun.processing.2 hw
        | cancelled st hst hrun => exact hrun.processing.2 hw
      have hold : ∀ w, s.runs.get? w ≠ none → s.outcomeOf w ≠ none := by
        intro w hne hnone
        have hreg := hs.registered w hne
        rw [specOf_eq_none_iff.2 hnone] at hreg
        cases hreg
      refine ⟨step_drainsPlain hs.plain h, hruns, ?_, fun w hne => ?_, fun w hst => ?_,
        fun w hpc hst => ?_⟩
      · have := hpass.bound
        have := hs.bound
        omega
      · have hkept : SameRun w s s' → (s'.specOf w).isSome = true := by
          intro hrun
          rw [hrun.runs] at hne
          exact (step_registered hs.plain hrestart h).1 (hs.registered w hne)
        cases hforeign w with
        | kept hrun => exact hkept hrun
        | submitted hrun => exact hkept hrun
        | admitted hp =>
          exact (step_registered hs.plain hrestart h).1 (specOf_isSome_of_stateOf hp.1)
        | blocked hp hrun => exact hkept hrun
        | cancelled st hst hrun => exact hkept hrun
      · rcases waiting_foreign (hforeign w) hst with hwait | hnew
        · rcases hs.waiting w hwait with hq | hp
          · exact (hpass.queued w hq hst).imp_right And.right
          · exact .inr (hstays w hp)
        · obtain ⟨spec, rfl⟩ := (step_registered hs.plain hrestart h).2
            (specOf_eq_none_iff.2 hnew) (specOf_isSome_of_stateOf hst)
          obtain rfl := Option.some.inj h
          refine submitted_queued hnew ?_
          rcases (submitWorkload_cases s spec).2 w with ho | ⟨-, ho⟩
          · rw [stateOf_eq, ho, hnew] at hst
            cases hst
          · exact ho
      · have hrun : s.runs.get? w = some .finishing := by
          cases hforeign w with
          | kept hrun => exact hrun.runs ▸ hpc
          | submitted hrun => exact hrun.runs ▸ hpc
          | admitted hp hproc hstart =>
            rw [hpc] at hstart
            cases hstart
          | blocked hp hrun => exact hrun.runs ▸ hpc
          | cancelled st hst hrun => exact hrun.runs ▸ hpc
        have hne : s.runs.get? w ≠ none := by rw [hrun]; exact nofun
        have hwait := (waiting_foreign (hforeign w) hst).resolve_right (hold w hne)
        refine (hpass.queued w (hs.leaving w hrun hwait) hst).resolve_right ?_
        exact fun hstart => hstart.1 ((hs.runs w).1 hne)

theorem queueInv_init (cfg : Config) : QueueInv cfg {} := by
  refine ⟨fun w f d r t hpc => ?_, fun w => ?_, Nat.zero_le _, fun w hne => absurd rfl hne,
    fun w hst => ?_, fun w hpc => ?_⟩
  · cases hpc
  · exact ⟨fun hne => absurd rfl hne, fun hmem => absurd hmem (PySet.notMem_empty w)⟩
  · cases hst
  · cases hpc

/-- The admission loop starts no second run of a workload: the runs there are stay as they are. -/
def StartsOnce (cfg : Config) (s : State) (a : Action) : Prop :=
  ∀ order s', a = .admissionPass order → step cfg s a = some s' →
    ∀ w, s.runs.get? w ≠ none → s'.runs.get? w = s.runs.get? w

theorem startsOnce_step (hs : QueueInv cfg s) (a : Action) : StartsOnce cfg s a := by
  rintro order s' rfl h w hne
  obtain ⟨-, -, -, -, hcases⟩ := admissionPass_cases h
  rcases hcases w with ⟨hrun, -⟩ | ⟨-, hrun, -⟩ | ⟨hp, -⟩
  · exact hrun.runs
  · exact hrun.runs
  · exact absurd ((hs.runs w).1 hne) hp.2

/-- **The admission queue.** Along every run of the coordinator no workload gets a second run while
it has one, and in every state reached the workloads that are being processed are those with a run,
they are at most as many as the dispatch tasks, and every workload that waits is queued or being
processed. -/
theorem admission_queue {as : List Action} (h : runSteps cfg {} as = some s) :
    Along (step cfg) (StartsOnce cfg) {} as ∧
      (∀ w, s.runs.get? w ≠ none ↔ w ∈ s.processing) ∧
      s.processing.toList.length ≤ max 1 cfg.maxDispatchTasks ∧
      ∀ w, s.stateOf w = some .submitted → w ∈ s.queued ∨ w ∈ s.processing := by
  have hstep : ∀ s a s', QueueInv cfg s → True → step cfg s a = some s' → QueueInv cfg s' :=
    fun _ _ _ hi _ => queueInv_step hi
  have hs : QueueInv cfg s := (along_of_run h).invariant hstep (queueInv_init cfg) h
  refine ⟨?_, hs.runs, hs.bound, hs.waiting⟩
  exact (along_of_run h).imp hstep (fun s a _ hi _ _ => startsOnce_step hi a) (queueInv_init cfg)

/-- A workload that finds no worker waits again, and is queued before its run leaves. -/
theorem admission_queue_waiting :
    ∃ s : State, runSteps (sampleConfig 1) {} (dispatchSample [] "w") = some s ∧
      s.stateOf "w" = some .submitted ∧ ("w" ∈ s.queued ∨ "w" ∈ s.processing) ∧
      s.processing.toList.length ≤ 4 := by
  have hrun : (runSteps (sampleConfig 1) {} (dispatchSample [] "w")).map
      (fun s => s.stateOf "w") = some (some .submitted) := by decide +kernel
  obtain ⟨s, hs, hst⟩ := Option.map_eq_some_iff.1 hrun
  obtain ⟨-, -, hbound, hwaiting⟩ := admission_queue hs
  exact ⟨s, hs, hst, hwaiting "w" hst, hbound⟩

end Aidars.Orchestrator
