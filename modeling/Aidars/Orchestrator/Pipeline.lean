import Mathlib.Data.Finset.Union
import Aidars.Orchestrator.Dispatches
import Aidars.Orchestrator.Recovery

/-!
# Pipelines

A workload with dependencies runs when they have completed, on its own inputs and their outputs. The
dependencies are examined when a run enters its loop; between then and the placement of an attempt
the only step that can undo a completion is the end of a cancellation that was requested before the
dependency completed. Along runs without such a step (`KeepsPipeline`) an attempt is made only while
all dependencies have completed successfully, and its inputs are exactly those that they, the
submitted specification and the recorded checkpoints give (`pipeline_safety`).
-/

namespace Aidars.Orchestrator

open AttemptRegistry (Ledger Marked)

variable {cfg : Config} {s s' s₁ s₂ : State} {w v : String} {a : Action} {f : Frame} {d : Dispatch}

/-! ## Completion -/

/-- The workload has completed with a successful result. -/
def Succeeded (s : State) (w : String) : Prop :=
  ∃ result, s.outcomeOf w = some (.completed, some result) ∧ result.success = true

/-- A workload that is completed after the operation was so before, with the same result. -/
def NoCompletion (w : String) (s s' : State) : Prop :=
  s'.stateOf w = some .completed → s'.outcomeOf w = s.outcomeOf w

namespace NoCompletion

theorem of_outcome (h : s'.outcomeOf w = s.outcomeOf w) : NoCompletion w s s' := fun _ => h

theorem of_workloads (h : s'.workloads = s.workloads) : NoCompletion w s s' :=
  of_outcome (by rw [State.outcomeOf, State.outcomeOf, h])

theorem trans (h₁ : NoCompletion w s s₁) (h₂ : NoCompletion w s₁ s₂) : NoCompletion w s s₂ := by
  intro hc
  have he := h₂ hc
  have hc₁ : s₁.stateOf w = some .completed := by rw [stateOf_eq, ← he, ← stateOf_eq, hc]
  exact he.trans (h₁ hc₁)

theorem updateState (s : State) (w : String) {st : WorkloadState} (hst : st ≠ .completed)
    (m : Option String) : NoCompletion w s (s.updateState w st m) := by
  intro hc
  rw [stateOf_eq, outcomeOf_updateState, if_pos rfl, Option.map_map] at hc
  obtain ⟨o, -, ho⟩ := Option.map_eq_some_iff.1 hc
  exact absurd ho hst

theorem setPlacement (s : State) (w : String) (p : Option PlacementDecision) :
    NoCompletion w s (s.setPlacement w p) := by
  refine of_outcome ?_
  simp only [State.outcomeOf, State.setPlacement, State.modifyWorkload, Dict.get?_modify, if_true,
    Option.map_map]
  rfl

theorem setResult (s : State) (w : String) {r : WorkloadExecutionResult} (hr : r.success = false) :
    NoCompletion w s (s.setResult w r) := by
  intro hc
  simp only [State.stateOf, State.setResult, State.modifyWorkload, Dict.get?_modify, if_true,
    Option.map_map, hr] at hc
  obtain ⟨o, -, ho⟩ := Option.map_eq_some_iff.1 hc
  cases ho

theorem returnRun (s : State) (v w : String) : NoCompletion w s (s.returnRun v) :=
  of_workloads (workloads_returnRun s v)

theorem failRun (s : State) (w : String) (m : Option String) :
    NoCompletion w s (s.failRun w m) :=
  (updateState s w (by decide) m).trans (returnRun _ w w)

theorem promoteSpare (s : State) (f : Frame) (w : String) :
    NoCompletion w s (s.promoteSpare f).1 := of_workloads (promoteSpare_frame s f).1

theorem retryOrFail (s : State) (w : String) (f : Frame) (c : Option FailureCategory) (m : String) :
    NoCompletion w s (s.retryOrFail cfg w f c m) := by
  unfold State.retryOrFail
  split_ifs
  · exact of_workloads rfl
  · exact failRun s w _

end NoCompletion

theorem noCompletion_startRun (h : s.startRun cfg w = some s') : NoCompletion w s s' := by
  unfold State.startRun at h
  split at h
  · split at h
    · obtain rfl := Option.some.inj h
      exact .returnRun s w w
    · rename_i record _
      split_ifs at h
      · obtain rfl := Option.some.inj h
        exact .returnRun s w w
      · have hdep : NoCompletion w s (s.dependencyState w record.spec.dependsOn).1 := by
          rcases dependencyState_cases s w record.spec.dependsOn with he | ⟨-, m, he⟩
          · rw [he]
            exact .of_workloads rfl
          · rw [he]
            exact .updateState s w (by decide) m
        split at h
        · rename_i s₁ hs
          rw [hs] at hdep
          split at h
          · obtain rfl := Option.some.inj h
            refine hdep.trans ?_
            have hplacing : NoCompletion w s₁
                ((s₁.updateState w .validating).updateState w .placing) :=
              (NoCompletion.updateState s₁ w (by decide) none).trans
                (.updateState _ w (by decide) none)
            unfold State.enterLoop
            dsimp only
            split_ifs
            · exact hplacing.trans (.failRun _ w _)
            · exact hplacing.trans ((NoCompletion.promoteSpare _ _ w).trans (.failRun _ w _))
            · exact hplacing.trans ((NoCompletion.promoteSpare _ _ w).trans (.of_workloads rfl))
          · obtain rfl := Option.some.inj h
            exact hdep.trans (.returnRun s₁ w w)
        · rename_i s₁ _ _ hs
          rw [hs] at hdep
          obtain rfl := Option.some.inj h
          exact hdep.trans (.returnRun s₁ w w)
  · cases h

theorem noCompletion_noDecision (s : State) (w : String) (f : Frame) :
    NoCompletion w s (s.noDecision w f) := by
  have hp := NoCompletion.setPlacement s w none
  unfold State.noDecision
  dsimp only
  split_ifs
  · exact hp.trans ((NoCompletion.updateState _ w (by decide) _).trans (.returnRun _ w w))
  · exact hp.trans (.failRun _ w _)
  · exact hp.trans (.failRun _ w _)
  · exact hp.trans ((NoCompletion.updateState _ w (by decide) _).trans (.returnRun _ w w))

theorem noCompletion_place {ranking : Ranking} {now : ℚ} {execId : String}
    (h : s.place cfg w ranking now execId = some s') : NoCompletion w s s' := by
  unfold State.place at h
  split at h
  · rename_i f hpc
    have hp := NoCompletion.promoteSpare s f w
    dsimp only at h
    split_ifs at h
    · obtain rfl := Option.some.inj h
      exact hp.trans (.returnRun _ w w)
    · split at h
      · obtain rfl := Option.some.inj h
        exact hp.trans (noCompletion_noDecision _ w _)
      · obtain rfl := Option.some.inj h
        exact hp.trans (noCompletion_noDecision _ w _)
      · rename_i p rest _
        obtain rfl := Option.some.inj h
        have hrecord : NoCompletion w (s.promoteSpare f).1 ((s.promoteSpare f).1.recordAttempt w p
            (State.newGroup (s.promoteSpare f).2 execId (p :: rest))) :=
          ((NoCompletion.setPlacement _ w (some p)).trans (.updateState _ w (by decide) none)).trans
            (.of_workloads rfl)
        refine (hp.trans hrecord).trans ?_
        unfold State.launch
        dsimp only
        split_ifs
        · exact (NoCompletion.of_workloads rfl).trans (.retryOrFail _ w _ _ _)
        · exact (NoCompletion.of_workloads rfl).trans
            ((NoCompletion.updateState _ w (by decide) none).trans (.of_workloads rfl))
  · cases h

theorem noCompletion_failureResult {r : WorkloadExecutionResult} (hr : r.success = false)
    (s : State)
    (w : String) (f : Frame) (d : Dispatch) (u : PySet String) (b : Bool) (now : ℚ) :
    NoCompletion w s (s.failureResult cfg w f d r u b now) := by
  have hsettled : NoCompletion w s (s.settleFailure d r u b) :=
    .of_workloads (settled_settleFailure s w d r u b).choose_spec.2.2.2.1
  unfold State.failureResult
  dsimp only
  split_ifs
  · exact hsettled.trans (.of_workloads rfl)
  · exact hsettled.trans ((NoCompletion.of_workloads rfl).trans
      ((NoCompletion.setResult _ w hr).trans (.failRun _ w _)))
  · exact hsettled.trans (.of_workloads rfl)
  · exact hsettled.trans ((NoCompletion.setResult _ w hr).trans (.failRun _ w _))
  · exact hsettled.trans (.of_workloads rfl)
  · exact hsettled.trans ((NoCompletion.setResult _ w hr).trans (.failRun _ w _))

theorem noCompletion_lostGroupResult {r : WorkloadExecutionResult} (hc : r.wasCheckpointed = false)
    (s : State) (w : String) (f : Frame) (d : Dispatch) (u : PySet String) (now : ℚ) :
    NoCompletion w s (s.lostGroupResult cfg w f d r u now) := by
  unfold State.lostGroupResult State.settleResult
  dsimp only
  rw [if_neg (by simp [hc]), if_neg (by simp)]
  exact noCompletion_failureResult rfl s w f d _ true now

theorem noCompletion_checkpointResult (s : State) (w : String) (f : Frame) (d : Dispatch)
    (r : WorkloadExecutionResult) : NoCompletion w s (s.checkpointResult w f d r) := by
  have hend : ∀ s₀ s₁ : State, NoCompletion w s₀
      (((s₁.updateState w .submitted).enqueueWorkload w).returnRun w) := by
    intro s₀ s₁ hc
    rw [State.stateOf, workloads_returnRun, (enqueueWorkload_cases _ w).2, ← State.stateOf,
      stateOf_eq, outcomeOf_updateState, if_pos rfl, Option.map_map] at hc
    obtain ⟨o, -, ho⟩ := Option.map_eq_some_iff.1 hc
    cases ho
  exact hend s _

theorem successResult_completion (s : State) (w : String) (f : Frame) (d : Dispatch)
    {r : WorkloadExecutionResult} (hr : r.success = true) :
    NoCompletion w s (s.successResult w f d r) ∨ Succeeded (s.successResult w f d r) w := by
  have hrecord : ∀ s₀ : State, (s₀.recordArtifacts r).workloads = s₀.workloads := by
    intro s₀
    unfold State.recordArtifacts
    split_ifs <;> rfl
  have hout : (s.successResult w f d r).outcomeOf w =
      (s.outcomeOf w).map fun _ => (.completed, some r) := by
    unfold State.successResult State.outcomeOf
    rw [workloads_returnRun]
    dsimp only
    rw [hrecord]
    simp only [State.updateState, State.setResult, State.modifyWorkload, Dict.get?_modify, if_true,
      Option.map_map]
    rfl
  cases ho : s.outcomeOf w with
  | none =>
    rw [ho] at hout
    exact .inl fun _ => hout.trans ho.symm
  | some o =>
    rw [ho] at hout
    exact .inr ⟨r, hout, hr⟩

/-- An answer completes the workload with a successful result, or does not complete it. -/
theorem resume_completion {now : ℚ} (h : s.resume cfg w now = some s') :
    NoCompletion w s s' ∨ (Succeeded s' w ∧ Returned w s') := by
  obtain ⟨f, d, reply, -, -, rfl, -⟩ := resume_cases h
  cases reply with
  | result r u t =>
    show NoCompletion w s (s.handleResult cfg w f d r u t now) ∨
      (Succeeded (s.handleResult cfg w f d r u t now) w ∧
        Returned w (s.handleResult cfg w f d r u t now))
    unfold State.handleResult
    dsimp only
    split_ifs with hcancelled hgroup
    · exact .inl ((NoCompletion.of_workloads rfl).trans
        ((NoCompletion.updateState _ w (by decide) _).trans (.returnRun _ w w)))
    · have hr := wasCheckpointed_rejectGroupCheckpoint (r := r) hgroup.1
      split
      · exact .inl (.of_workloads rfl)
      · exact .inl (noCompletion_lostGroupResult hr s w f d t now)
    · unfold State.settleResult
      split_ifs with hc hsuccess
      · exact .inl (noCompletion_checkpointResult s w f d _)
      · rcases successResult_completion s w f d hsuccess with hn | hsucc
        · exact .inl hn
        · exact .inr ⟨hsucc, (settled_successResult s w f d _).2.2⟩
      · exact .inl (noCompletion_failureResult (by simpa using hsuccess) s w f d u false now)
  | submitUnavailable m =>
    exact .inl ((NoCompletion.of_workloads rfl).trans (.retryOrFail _ w _ _ _))
  | recordLost m =>
    exact .inl ((NoCompletion.of_workloads rfl).trans (.retryOrFail _ w _ _ _))
  | otherException m =>
    have hsettled :
        NoCompletion w s ((s.recordFailures cfg d.workerIds now).settleException d m) := by
      unfold State.settleException
      split_ifs <;> exact .of_workloads rfl
    show NoCompletion w s (s.handleOtherException cfg w f d m now) ∨ _
    unfold State.handleOtherException
    dsimp only
    split_ifs
    · exact .inl (hsettled.trans (.of_workloads rfl))
    · exact .inl (hsettled.trans ((NoCompletion.updateState _ w (by decide) _).trans
        (.of_workloads rfl)))

theorem segment_completion (hplain : DrainsPlain s) (hseg : a.segmentOf = some w)
    (h : step cfg s a = some s') : NoCompletion w s s' ∨ (Succeeded s' w ∧ Returned w s') := by
  cases segment_of_eq hseg with
  | startRun =>
    exact .inl (noCompletion_startRun h)
  | place ranking now execId =>
    exact .inl (noCompletion_place h)
  | callEvent i event =>
    obtain ⟨f', d', c, phase, -, rfl⟩ := advanceCall_cases h
    exact .inl (.of_workloads rfl)
  | resume now =>
    exact resume_completion h
  | drainResume now =>
    simp only [step, State.drainResume] at h
    split at h
    · rename_i f d r t hpc
      split_ifs at h
      obtain rfl := Option.some.inj h
      exact .inl ((NoCompletion.of_workloads rfl).trans (noCompletion_lostGroupResult
        (hplain w f d r t hpc)
        { s with drainEvents := s.drainEvents.erase d.attemptId } w f d t now))
    · cases h
  | finishRun => exact .inl (.of_workloads (finishRun_cases h).2.2.1)

/-! ## Completions last -/

/-- A completion is not overwritten by the end of a cancellation, and a restart reads back all
attempts, and all workloads with their inputs. -/
def KeepsPipeline (cfg : Config) (s : State) : Action → Prop
  | .cancelFinish v => s.stateOf v ≠ some .completed
  | .restart now => ReadsBack s (.restart now) ∧ ∀ r ∈ s.workloads.values,
      ∃ r' ∈ StateStore.reloadWorkload cfg.floatRepr r,
        r'.spec.inputAssetHashes = r.spec.inputAssetHashes
  | _ => True

instance (cfg : Config) (s : State) (a : Action) : Decidable (KeepsPipeline cfg s a) := by
  apply a.casesOn (motive := fun a => Decidable (KeepsPipeline cfg s a)) <;> intros <;>
    unfold KeepsPipeline <;> infer_instance

/-- A completed workload has a successful result and no run. -/
def CompletedInv (s : State) : Prop :=
  ∀ w, s.stateOf w = some .completed → Succeeded s w ∧ Returned w s

theorem outcomeOf_restart (s : State) (now : ℚ) (w : String) :
    (s.restart cfg now).outcomeOf w = (s.workloads.get? w).bind fun r =>
      (StateStore.reloadWorkload cfg.floatRepr r).map fun r' =>
        ((State.redrive r').state, r.executionResult) := by
  rw [State.outcomeOf, workloads_restart]
  cases s.workloads.get? w with
  | none => rfl
  | some r =>
    rw [Option.bind_some, Option.bind_some, Option.map_map]
    cases hr : StateStore.reloadWorkload cfg.floatRepr r with
    | none => rfl
    | some r' =>
      have hresult := (StateStore.reloadWorkload_some hr).2.2.2.2
      have hredrive : (State.redrive r').executionResult = r'.executionResult := by
        unfold State.redrive
        split_ifs <;> rfl
      simp only [Option.map_some, Function.comp_apply, hredrive, hresult]

/-- A workload that is completed after a restart was completed before it. -/
theorem redrive_completed {r : WorkloadRecord} (h : (State.redrive r).state = .completed) :
    r.state = .completed := by
  unfold State.redrive at h
  split_ifs at h
  exact h

/-- A run that has returned only leaves the queue. -/
theorem segment_of_returned (hret : Returned w s) (hseg : a.segmentOf = some w)
    (h : step cfg s a = some s') : Returned w s' ∧ s'.outcomeOf w = s.outcomeOf w := by
  have hat : ∀ pc, s.runs.get? w = some pc → pc = .finishing := by
    intro pc hpc
    rcases hret with hret | hret
    · rw [hpc] at hret
      cases hret
    · exact Option.some.inj (hpc.symm.trans hret)
  cases segment_of_eq hseg with
  | startRun =>
    cases hat _ (startRun_cases h).1
  | place ranking now execId =>
    obtain ⟨f₀, hf₀, -⟩ := place_cases h
    cases hat _ hf₀
  | callEvent i event =>
    obtain ⟨f', d', c, phase, hpc, -⟩ := advanceCall_cases h
    cases hat _ hpc
  | resume now =>
    obtain ⟨f', d', reply, hpc, -⟩ := resume_cases h
    cases hat _ hpc
  | drainResume now =>
    obtain ⟨f', d', r, t, hpc, -⟩ := drainResume_cases h
    cases hat _ hpc
  | finishRun =>
    obtain ⟨-, hruns, hworkloads, -⟩ := finishRun_cases h
    exact ⟨.inl hruns, by rw [State.outcomeOf, hworkloads, ← State.outcomeOf]⟩

theorem completedInv_step (hplain : DrainsPlain s) (hs : CompletedInv s)
    (h : step cfg s a = some s') : CompletedInv s' := by
  intro w hc
  cases hrestart : a.isRestart with
  | true =>
    obtain ⟨now, rfl, rfl⟩ := restart_of_step hrestart h
    refine ⟨?_, .inl rfl⟩
    rw [stateOf_eq, outcomeOf_restart] at hc
    obtain ⟨o, ho, hst⟩ := Option.map_eq_some_iff.1 hc
    have hout := ho
    obtain ⟨r, hr, ho⟩ := Option.bind_eq_some_iff.1 ho
    obtain ⟨r', hr', rfl⟩ := Option.map_eq_some_iff.1 ho
    have hold : s.stateOf w = some .completed := by
      rw [State.stateOf, hr, Option.map_some, ← StateStore.reloadWorkload_state hr',
        redrive_completed hst]
    obtain ⟨⟨result, hresult, hsucc⟩, -⟩ := hs w hold
    refine ⟨result, ?_, hsucc⟩
    rw [State.outcomeOf, hr] at hresult
    have hresult := (Prod.mk.inj (Option.some.inj hresult)).2
    rw [outcomeOf_restart, hout, ← hresult]
    dsimp only at hst
    rw [hst]
  | false =>
    by_cases hseg : a.segmentOf = some w
    · rcases segment_completion hplain hseg h with hn | hdone
      · have he := hn hc
        have hold : s.stateOf w = some .completed := by rw [stateOf_eq, ← he, ← stateOf_eq, hc]
        obtain ⟨⟨result, hresult, hsucc⟩, hret⟩ := hs w hold
        exact ⟨⟨result, he.trans hresult, hsucc⟩, (segment_of_returned hret hseg h).1⟩
      · exact hdone
    · have hkept :
          SameRun w s s' → s'.outcomeOf w = s.outcomeOf w → Succeeded s' w ∧ Returned w s' := by
        intro hrun hout
        have hold : s.stateOf w = some .completed := by rw [stateOf_eq, ← hout, ← stateOf_eq, hc]
        obtain ⟨⟨result, hresult, hsucc⟩, hret⟩ := hs w hold
        refine ⟨⟨result, hout.trans hresult, hsucc⟩, ?_⟩
        rw [Returned, hrun.runs]
        exact hret
      cases step_foreign h hseg hrestart with
      | kept hrun hout => exact hkept hrun hout
      | submitted hrun hnew hout =>
        rw [stateOf_eq, hout] at hc
        cases hc
      | admitted hp hproc hpc hout =>
        rw [stateOf_eq, hout, ← stateOf_eq, hp.1] at hc
        cases hc
      | blocked hp hrun hout =>
        rw [stateOf_eq, hout, failedOutcome, Option.map_map] at hc
        obtain ⟨o, -, ho⟩ := Option.map_eq_some_iff.1 hc
        cases ho
      | cancelled st hst hrun hfrom hout =>
        rw [stateOf_eq, hout, Option.map_map] at hc
        obtain ⟨o, -, ho⟩ := Option.map_eq_some_iff.1 hc
        have ho : st = .completed := ho
        rw [ho] at hst
        cases hst

/-- **A completion lasts.** -/
theorem Succeeded.step (hs : CompletedInv s) (hg : KeepsPipeline cfg s a)
    (h : step cfg s a = some s') (hw : Succeeded s w) : s'.outcomeOf w = s.outcomeOf w := by
  obtain ⟨result, hresult, hsucc⟩ := hw
  have hc : s.stateOf w = some .completed := by rw [stateOf_eq, hresult]; rfl
  cases hrestart : a.isRestart with
  | true =>
    obtain ⟨now, rfl, rfl⟩ := restart_of_step hrestart h
    rw [outcomeOf_restart]
    obtain ⟨r, hr, hst⟩ := Option.map_eq_some_iff.1 hc
    obtain ⟨r', hr', -⟩ := hg.2 r (Dict.mem_values.2 ⟨w, hr⟩)
    have hr' : StateStore.reloadWorkload cfg.floatRepr r = some r' := hr'
    have hstate := StateStore.reloadWorkload_state hr'
    rw [State.outcomeOf, hr, Option.bind_some, hr', Option.map_some, Option.map_some]
    have hkeep : State.redrive r' = r' := by
      unfold State.redrive
      rw [if_pos (by rw [hstate, hst]; rfl)]
    rw [hkeep, hstate]
  | false =>
    by_cases hseg : a.segmentOf = some w
    · exact (segment_of_returned (hs w hc).2 hseg h).2
    · cases step_foreign h hseg hrestart with
      | kept hrun hout => exact hout
      | submitted hrun hnew hout =>
        rw [hnew] at hresult
        cases hresult
      | admitted hp hproc hpc hout => exact hout
      | blocked hp hrun hout =>
        have hpending := hp.1
        rw [hc] at hpending
        cases hpending
      | cancelled st hst hrun hfrom hout =>
        rcases hfrom with ⟨x, hx, hopen⟩ | ⟨-, -, rfl⟩
        · rw [hc] at hx
          obtain rfl := Option.some.inj hx
          cases hopen
        · exact absurd hc hg

/-! ## Recorded checkpoints -/

/-- The checkpoint that an attempt has saved. -/
def checkpointOf (reg : AttemptRegistry) (id : String) : Option String :=
  (reg.getAttempt id).bind (·.checkpointHash)

/-- The checkpoints recorded for a workload. -/
def checkpointHashes (s : State) (w : String) : Finset String :=
  ((s.attempts.idsOf w).filterMap (checkpointOf s.attempts)).toFinset

theorem mem_checkpointHashes {hash : String} : hash ∈ checkpointHashes s w ↔
    ∃ id ∈ s.attempts.idsOf w, checkpointOf s.attempts id = some hash := by
  rw [checkpointHashes, List.mem_toFinset, List.mem_filterMap]

theorem checkpointHashes_congr (hids : s'.attempts.idsOf w = s.attempts.idsOf w)
    (hhash : ∀ id ∈ s.attempts.idsOf w, checkpointOf s'.attempts id = checkpointOf s.attempts id) :
    checkpointHashes s' w = checkpointHashes s w := by
  rw [checkpointHashes, checkpointHashes, hids, List.filterMap_congr hhash]

/-- Marks that save no checkpoint leave the recorded ones alone. -/
theorem checkpointOf_of_marked {P : AttemptRegistry → String → Mark → Prop}
    {reg reg' : AttemptRegistry} (h : Marked P reg reg')
    (hP : ∀ reg id r, P reg id (.succeeded r) → r.savesCheckpoint = false) (id : String) :
    checkpointOf reg' id = checkpointOf reg id := by
  refine h.invariant (K := fun reg₁ => checkpointOf reg₁ id = checkpointOf reg id)
    (fun reg₁ id' m hk hm => ?_) rfl
  rw [← hk, checkpointOf, checkpointOf, AttemptRegistry.getAttempt_mark]
  split_ifs with hid
  · rw [hid]
    cases reg₁.getAttempt id' with
    | none => rfl
    | some r =>
      cases m with
      | succeeded result =>
        have hplain := hP reg₁ id' result hm
        simp only [Option.map_some, Option.bind_some, Mark.write, hplain, Bool.false_eq_true,
          if_false]
      | failed c why result => rfl
      | lost why ids => rfl
  · rfl

/-- A result that saves no checkpoint. -/
def plainResult : WorkloadExecutionResult :=
  State.unsuccessfulResult "" "" "" .executionFailure

/-- An answer is a checkpoint to resume from, or leaves the specifications and the recorded
checkpoints alone. -/
theorem resume_inputs {now : ℚ} (h : s.resume cfg w now = some s') :
    (SameSpecs s s' ∧ ∀ id, checkpointOf s'.attempts id = checkpointOf s.attempts id) ∨
    ∃ f d r hash, s.runs.get? w = some (.dispatch f d) ∧ r.wasCheckpointed = true ∧
      r.checkpointHash.filter (· ≠ "") = some hash ∧ s' = s.checkpointResult w f d r := by
  obtain ⟨f, d, reply, hpc, -, rfl, -⟩ := resume_cases h
  -- an answer that is no result saves no checkpoint
  have hother : (∀ r u t, reply ≠ .result r u t) →
      SameSpecs s (s.handleReply cfg w f d now reply) ∧
        ∀ id, checkpointOf (s.handleReply cfg w f d now reply).attempts id =
          checkpointOf s.attempts id := by
    intro hne
    refine ⟨?_, checkpointOf_of_marked (marked_handleReply s w f d now reply) ?_⟩
    · cases handleReply_answered s w f d now reply with
      | waits r t heq =>
        rw [heq]
        exact .of_workloads rfl
      | checkpoint r u t hash hreply => exact absurd hreply (hne r u t)
      | same ids hspec => exact hspec
    · intro reg id r hcause
      cases hcause with
      | succeeded r hr =>
        refine Bool.eq_false_iff.2 fun hsaves => ?_
        obtain ⟨u, t, hreply⟩ := hr hsaves
        exact hne r u t hreply
  cases reply with
  | result r u t =>
    rcases @handleResult_marks cfg s w f d r u t now with ⟨-, hc, heq⟩ | ⟨hspec, hmarked⟩
    · cases hhash : r.checkpointHash.filter (· ≠ "") with
      | some hash => exact .inr ⟨f, d, r, hash, hpc, hc, hhash, heq⟩
      | none =>
        refine .inl ?_
        have heq : s.handleReply cfg w f d now (.result r u t) = s.checkpointResult w f d r := heq
        rw [heq]
        refine ⟨fun v => by rw [specOf_checkpointResult, hhash], fun id => ?_⟩
        have hsaves : r.savesCheckpoint = false := by
          unfold WorkloadExecutionResult.savesCheckpoint
          cases hr : r.checkpointHash with
          | none => simp
          | some hash =>
            rw [hr, Option.filter_some] at hhash
            split_ifs at hhash with hne
            have hempty : hash = "" := by simpa using hne
            simp [hempty]
        have hmark : Marked (fun _ _ m => m = .succeeded r) s.attempts
            (s.attempts.markSucceeded d.attemptId r) := Marked.markSucceeded rfl
        rw [(settled_checkpointResult s w f d r).1]
        refine checkpointOf_of_marked hmark (fun _ _ r' hr' => ?_) id
        cases hr'
        exact hsaves
    · refine .inl ⟨hspec, checkpointOf_of_marked (hmarked plainResult) fun reg id r' hcause => ?_⟩
      cases hcause with
      | succeeded r' hr =>
        refine Bool.eq_false_iff.2 fun hsaves => ?_
        obtain ⟨u', t', hreply⟩ := hr hsaves
        cases hreply
        cases hsaves
  | submitUnavailable m => exact .inl (hother fun _ _ _ h => Reply.noConfusion h)
  | recordLost m => exact .inl (hother fun _ _ _ h => Reply.noConfusion h)
  | otherException m => exact .inl (hother fun _ _ _ h => Reply.noConfusion h)

/-- What a step does to the inputs of a workload: nothing, or it submits it, or it records a
checkpoint, from which the workload is to resume. -/
inductive InputStep (s : State) (a : Action) (s' : State) (w : String) : Prop
  | same (hspec : s'.specOf w = s.specOf w)
      (hhash : checkpointHashes s' w = checkpointHashes s w)
  | submitted (spec : WorkloadSpec) (ha : a = .submitWorkload spec) (hw : spec.workloadId = w)
      (hnew : s.specOf w = none) (hspec : s'.specOf w = some spec)
      (hhash : checkpointHashes s' w = checkpointHashes s w)
  | checkpoint (f : Frame) (hash : String) (hf : s.frameOf w = some f) (hreturned : Returned w s')
      (hspec : s'.specOf w = (s.specOf w).map fun _ => resumeSpec f.spec hash)
      (hhash : checkpointHashes s' w = insert hash (checkpointHashes s w))

/-- No attempt that is dispatched has saved a checkpoint yet. -/
def Unsaved (s : State) : Prop :=
  ∀ w f d, AtAttempt s w f d → checkpointOf s.attempts d.attemptId = none

theorem checkpointOf_recorded {p : PlacementDecision} {rest : List PlacementDecision}
    {execId : String} (h : Recorded s s' w f execId p rest) (id : String) :
    checkpointOf s'.attempts id =
      if id = s.attempts.nextId w then none else checkpointOf s.attempts id := by
  obtain ⟨r, hopen, hget⟩ := getAttempt_recorded h
  rw [checkpointOf, hget]
  split_ifs
  · cases hopen with
    | running => rfl
    | lost m missing => rfl
  · rfl

/-- Only an answer changes the checkpoint of an attempt. -/
theorem checkpointOf_step (hplain : DrainsPlain s) (hrestart : a.isRestart = false)
    (hresume : ∀ v now, a ≠ .resume v now)
    (hplace : ∀ v ranking now execId, a ≠ .place v ranking now execId)
    (h : step cfg s a = some s') (id : String) :
    checkpointOf s'.attempts id = checkpointOf s.attempts id := by
  cases hseg : a.segmentOf with
  | none =>
    refine checkpointOf_of_marked (step_evicts h hseg hrestart) (fun reg id r hm => ?_) id
    obtain ⟨x, why, hm, -⟩ := hm
    cases hm
  | some u =>
    cases segment_of_eq hseg with
    | startRun => rw [(startRun_cases h).2.1]
    | place ranking now execId => exact absurd rfl (hplace u ranking now execId)
    | callEvent i event =>
      obtain ⟨f', d', c, phase, -, rfl⟩ := advanceCall_cases h
      rfl
    | resume now => exact absurd rfl (hresume u now)
    | drainResume now =>
      obtain ⟨f, d, r, t, hpc, hmarked⟩ := drainResume_marked h
      have hr := hplain u f d r t hpc
      refine checkpointOf_of_marked (hmarked hr) (fun reg id r' hcause => ?_) id
      cases hcause with
      | succeeded r' hsaved =>
        refine Bool.eq_false_iff.2 fun hsaves => ?_
        obtain ⟨u', t', hreply⟩ := hsaved hsaves
        obtain ⟨rfl, -, -⟩ := Reply.result.inj hreply
        rw [savesCheckpoint_eq_false (by rw [hr]; exact Bool.false_ne_true)] at hsaves
        cases hsaves
    | finishRun => rw [(finishRun_cases h).2.2.2.1]

theorem checkpointHashes_place {ranking : Ranking} {now : ℚ} {execId : String}
    (hl : Ledger s.attempts) (h : s.place cfg v ranking now execId = some s') (w : String) :
    checkpointHashes s' w = checkpointHashes s w := by
  obtain ⟨f₀, -, -, ⟨-, ha⟩ | ⟨p, rest, -, hrec⟩⟩ := place_spec h
  · rw [checkpointHashes, checkpointHashes, ha]
  · have hold := checkpointOf_recorded hrec
    have hids := idsOf_recorded hrec w
    rw [attempts_promoteSpare] at hold hids
    have hkept : ∀ id ∈ s.attempts.idsOf w,
        checkpointOf s'.attempts id = checkpointOf s.attempts id := by
      intro id hid
      rw [hold, if_neg]
      rintro rfl
      exact hl.nextId_notMem v w hid
    split_ifs at hids with hw
    · rw [checkpointHashes, checkpointHashes, hids, List.filterMap_append, hw,
        List.filterMap_congr (hw ▸ hkept)]
      simp [hold]
    · exact checkpointHashes_congr hids hkept

/-- The attempts of a workload that a run of another one is at. -/
theorem attemptId_notMem_idsOf (hs : LedgerInv s) (hat : AtAttempt s v f d) (hne : w ≠ v) :
    d.attemptId ∉ s.attempts.idsOf w := by
  intro hmem
  obtain ⟨r, hr, hrv, -⟩ := hs.owned v f d hat
  obtain ⟨r', hr', hrw⟩ := hs.ledger.present w d.attemptId hmem
  obtain rfl := Option.some.inj (hr.symm.trans hr')
  exact hne (hrw.symm.trans hrv)

theorem checkpointHashes_markSucceeded {r : WorkloadExecutionResult} {hash : String}
    (hs : LedgerInv s) (hd : DispatchInv s) (hu : Unsaved s)
    (hpc : s.runs.get? v = some (.dispatch f d)) (hc : r.wasCheckpointed = true)
    (hhash : r.checkpointHash.filter (· ≠ "") = some hash)
    (ha : s'.attempts = s.attempts.markSucceeded d.attemptId r) (w : String) :
    checkpointHashes s' w =
      if w = v then insert hash (checkpointHashes s v) else checkpointHashes s w := by
  have hat : AtAttempt s v f d := .inl hpc
  have hids : s'.attempts.idsOf w = s.attempts.idsOf w := by rw [ha]; rfl
  obtain ⟨hr, hne⟩ := Option.filter_eq_some_iff.1 hhash
  have hsaves : r.savesCheckpoint = true := by
    unfold WorkloadExecutionResult.savesCheckpoint
    rw [hc, hr]
    exact hne
  have hof : ∀ id, checkpointOf s'.attempts id =
      if id = d.attemptId then some hash else checkpointOf s.attempts id := by
    intro id
    have hmark : s'.attempts = s.attempts.mark d.attemptId (.succeeded r) := ha
    rw [checkpointOf, hmark, AttemptRegistry.getAttempt_mark]
    split_ifs with hid
    · obtain ⟨r₀, hr₀, -⟩ := (hd.own v f d hat).recorded
      simp only [hr₀, Option.map_some, Option.bind_some, Mark.write, hsaves, if_true, hr]
    · rfl
  split_ifs with hw
  · subst hw
    ext h
    rw [Finset.mem_insert, mem_checkpointHashes, mem_checkpointHashes, hids]
    constructor
    · rintro ⟨id, hid, hidh⟩
      rw [hof] at hidh
      split_ifs at hidh with he
      · exact .inl (Option.some.inj hidh).symm
      · exact .inr ⟨id, hid, hidh⟩
    · rintro (rfl | ⟨id, hid, hidh⟩)
      · exact ⟨d.attemptId, (hd.own w f d hat).listed, by rw [hof, if_pos rfl]⟩
      · refine ⟨id, hid, ?_⟩
        rw [hof, if_neg]
        · exact hidh
        · rintro rfl
          rw [hu w f d hat] at hidh
          cases hidh
  · refine checkpointHashes_congr hids fun id hid => ?_
    rw [hof, if_neg]
    rintro rfl
    exact attemptId_notMem_idsOf hs hat hw hid

/-- **What a step can do to the inputs of a workload.** -/
theorem step_inputs (hs : LedgerInv s) (hd : DispatchInv s) (hfiled : Filed s) (hu : Unsaved s)
    (hrestart : a.isRestart = false) (h : step cfg s a = some s') (w : String) :
    InputStep s a s' w := by
  have hnoplace : (∀ v ranking now execId, a ≠ .place v ranking now execId) →
      s'.attempts.idsOf w = s.attempts.idsOf w := by
    intro hplace
    exact idsOf_of_not_place hs.plain hrestart hplace h
  by_cases hres : ∃ v now, a = .resume v now
  · obtain ⟨v, now, rfl⟩ := hres
    have hids := hnoplace fun _ _ _ _ he => Action.noConfusion he
    rcases resume_inputs h with ⟨hspec, hhash⟩ | ⟨f, d, r, hash, hpc, hc, hhash, rfl⟩
    · exact .same (hspec w) (checkpointHashes_congr hids fun id _ => hhash id)
    · obtain ⟨ha, -, hret⟩ := settled_checkpointResult s v f d r
      have hf : s.frameOf v = some f := by rw [State.frameOf, hpc]
      have hspec := specOf_checkpointResult s v f d r w
      have hhashes := checkpointHashes_markSucceeded hs hd hu hpc hc hhash ha w
      rw [hhash, (hfiled.2.frame v f hf).1] at hspec
      dsimp only at hspec
      by_cases hw : w = v
      · subst hw
        rw [if_pos rfl] at hspec hhashes
        exact .checkpoint f hash hf hret hspec hhashes
      · rw [if_neg hw] at hspec hhashes
        exact .same hspec hhashes
  · have hhash : checkpointHashes s' w = checkpointHashes s w := by
      by_cases hplace : ∃ v ranking now execId, a = .place v ranking now execId
      · obtain ⟨v, ranking, now, execId, rfl⟩ := hplace
        exact checkpointHashes_place hs.ledger h w
      · have hplace : ∀ v ranking now execId, a ≠ .place v ranking now execId := by
          intro v ranking now execId ha
          exact hplace ⟨v, ranking, now, execId, ha⟩
        refine checkpointHashes_congr (hnoplace hplace) fun id _ => ?_
        exact checkpointOf_step hs.plain hrestart (fun v now ha => hres ⟨v, now, ha⟩) hplace h id
    cases step_specOf hs.plain hrestart h w with
    | same hspec => exact .same hspec hhash
    | submitted spec ha hv hnew hspec => exact .submitted spec ha hv.symm hnew hspec hhash
    | checkpoint u now f d r hash ha => exact absurd ⟨u, now, ha⟩ hres

theorem checkpointHashes_restart {now : ℚ} (hl : Ledger s.attempts)
    (hg : ReadsBack s (.restart now)) (w : String) :
    checkpointHashes (s.restart cfg now) w = checkpointHashes s w := by
  have hmoves := moves_restoreAttempts hg hl
  refine checkpointHashes_congr (hmoves.idsOf w) fun id hid => ?_
  obtain ⟨r, hr, -⟩ := hl.present w id hid
  obtain ⟨r', hr', ⟨r₁, hr₁, rfl⟩, -⟩ := hmoves.record id r hr
  have hlose : (State.loseInFlight r₁).checkpointHash = r₁.checkpointHash := by
    unfold State.loseInFlight
    split_ifs <;> rfl
  have hr' : (s.restart cfg now).attempts.getAttempt id = some (State.loseInFlight r₁) := hr'
  rw [checkpointOf, checkpointOf, hr, hr', Option.bind_some, Option.bind_some, hlose,
    (StateStore.reloadAttempt_workers hr₁).2.1]

theorem unsaved_step (hd : DispatchInv s) (hu : Unsaved s) (h : step cfg s a = some s') :
    Unsaved s' := by
  intro w f d hat
  rcases step_atAttempt hd.plain h hat with hat | ⟨hseg, hrestart, hruns⟩
  · cases hat with
    | placed ranking now execId f₀ p rest ha hpc hchoose hrec hat =>
      rw [checkpointOf_recorded hrec, if_pos (hrec.of_dispatch hat).2.2.1]
    | called d₀ hpc heq hid =>
      rw [heq, hid]
      exact hu w f d₀ (.inl hpc)
    | drained reply r t hpc heq =>
      rw [heq]
      exact hu w f d (.inl hpc)
  · have hat₀ := (atAttempt_congr hruns).1 hat
    have hold := hu w f d hat₀
    by_cases hres : ∃ v now, a = .resume v now
    · obtain ⟨v, now, rfl⟩ := hres
      rcases resume_inputs h with ⟨-, hhash⟩ | ⟨f', d', r, hash, hpc, -, -, rfl⟩
      · rw [hhash, hold]
      · obtain ⟨ha, -, -⟩ := settled_checkpointResult s v f' d' r
        have hids : d.attemptId ≠ d'.attemptId := by
          obtain ⟨n, hn⟩ := (hd.own w f d hat₀).id
          obtain ⟨n', hn'⟩ := (hd.own v f' d' (.inl hpc)).id
          rw [hn, hn']
          exact fun he => hseg (congrArg some (makeAttemptId_inj he).1.symm)
        rw [checkpointOf, ha, AttemptRegistry.markSucceeded, AttemptRegistry.getAttempt_update,
          if_neg hids]
        exact hold
    · by_cases hplace : ∃ v ranking now execId, a = .place v ranking now execId
      · obtain ⟨v, ranking, now, execId, rfl⟩ := hplace
        obtain ⟨f₀, -, -, ⟨-, ha⟩ | ⟨p, rest, -, hrec⟩⟩ := place_spec h
        · rw [ha, hold]
        · rw [checkpointOf_recorded hrec, attempts_promoteSpare]
          split_ifs
          · rfl
          · exact hold
      · rw [checkpointOf_step hd.plain hrestart (fun v now ha => hres ⟨v, now, ha⟩)
          (fun v ranking now execId ha => hplace ⟨v, ranking, now, execId, ha⟩) h, hold]

/-! ## The inputs of a stage -/

/-- The specification that a workload was first submitted with. -/
def submittedSpec (as : List Action) (w : String) : Option WorkloadSpec :=
  as.findSome? fun a => match a with
    | .submitWorkload spec => if spec.workloadId = w then some spec else none
    | _ => none

/-- The outputs of a workload that has completed successfully. -/
def outputsOf (s : State) (w : String) : Finset String :=
  match s.outcomeOf w with
  | some (.completed, some result) => if result.success then result.outputAssetHashes else ∅
  | _ => ∅

/-- The outputs of all the dependencies. -/
def dependencyOutputs (s : State) (deps : List String) : Finset String :=
  deps.toFinset.biUnion (outputsOf s)

/-- The inputs that a workload was submitted with, its checkpoints, and the outputs of its
dependencies. -/
def stageInputs (s : State) (w : String) (own : WorkloadSpec) : Finset String :=
  own.inputAssetHashes ∪ checkpointHashes s w ∪ dependencyOutputs s own.dependsOn

theorem outputsOf_mono (hs : CompletedInv s) (hg : KeepsPipeline cfg s a)
    (h : step cfg s a = some s') (w : String) : outputsOf s w ⊆ outputsOf s' w := by
  by_cases hw : Succeeded s w
  · rw [outputsOf, outputsOf, hw.step hs hg h]
  · have hnone : outputsOf s w = ∅ := by
      unfold outputsOf
      split
      · rename_i result hout
        rw [if_neg fun hsucc => hw ⟨result, hout, hsucc⟩]
      · rfl
    rw [hnone]
    exact Finset.empty_subset _

theorem dependencyOutputs_mono (hs : CompletedInv s) (hg : KeepsPipeline cfg s a)
    (h : step cfg s a = some s') (deps : List String) :
    dependencyOutputs s deps ⊆ dependencyOutputs s' deps :=
  Finset.biUnion_mono fun w _ => outputsOf_mono hs hg h w

theorem dependencyOutputs_eq (hs : CompletedInv s) (hg : KeepsPipeline cfg s a)
    (h : step cfg s a = some s') {deps : List String} (hdeps : ∀ dep ∈ deps, Succeeded s dep) :
    dependencyOutputs s' deps = dependencyOutputs s deps := by
  refine Finset.biUnion_congr rfl fun dep hdep => ?_
  rw [outputsOf, outputsOf, (hdeps dep (List.mem_toFinset.1 hdep)).step hs hg h]

/-- A stage gets the outputs of its dependencies, all of which have succeeded. -/
theorem specWithDependencyOutputs_inputs {spec spec' : WorkloadSpec} {deps : List String}
    (h : s.specWithDependencyOutputs spec deps = some spec') :
    (∀ dep ∈ deps, Succeeded s dep) ∧
      spec'.inputAssetHashes = spec.inputAssetHashes ∪ dependencyOutputs s deps := by
  induction deps generalizing spec with
  | nil =>
    obtain rfl := Option.some.inj h
    simp [dependencyOutputs]
  | cons dep deps ih =>
    unfold State.specWithDependencyOutputs at h
    split at h
    · cases h
    · rename_i r hr
      split at h
      · rename_i result hst hres
        split_ifs at h with hsucc
        obtain ⟨hdeps, hinputs⟩ := ih h
        have hout : s.outcomeOf dep = some (.completed, some result) := by
          rw [State.outcomeOf, hr, Option.map_some, hst, hres]
        refine ⟨?_, ?_⟩
        · intro x hx
          rcases List.mem_cons.1 hx with rfl | hx
          · exact ⟨result, hout, hsucc⟩
          · exact hdeps x hx
        · have houtputs : outputsOf s dep = result.outputAssetHashes := by
            simp only [outputsOf, hout, hsucc, if_true]
          rw [hinputs, dependencyOutputs, dependencyOutputs, List.toFinset_cons,
            Finset.biUnion_insert, houtputs, Finset.union_assoc]
      · cases h

/-! ## Pipeline safety -/

theorem submittedSpec_append (as : List Action) (a : Action) (w : String) :
    submittedSpec (as ++ [a]) w = (submittedSpec as w).or (submittedSpec [a] w) := by
  rw [submittedSpec, submittedSpec, submittedSpec, List.findSome?_append]

theorem submittedSpec_of_some {as : List Action} {own : WorkloadSpec}
    (h : submittedSpec as w = some own) (a : Action) : submittedSpec (as ++ [a]) w = some own := by
  rw [submittedSpec_append, h]
  rfl

/-- What the coordinator knows of its pipelines after the steps of `as`. The specification of a
record lies between the inputs the workload was submitted with, together with its checkpoints, and
all inputs of the stage; a run carries exactly the latter, its dependencies have succeeded. -/
structure PipelineInv (as : List Action) (s : State) : Prop where
  ledger : LedgerInv s
  dispatches : DispatchInv s
  filed : Filed s
  completed : CompletedInv s
  unsaved : Unsaved s
  unknown : ∀ w, s.specOf w = none → submittedSpec as w = none ∧ checkpointHashes s w = ∅
  record : ∀ w spec, s.specOf w = some spec → ∃ own, submittedSpec as w = some own ∧
    spec.dependsOn = own.dependsOn ∧
    own.inputAssetHashes ∪ checkpointHashes s w ⊆ spec.inputAssetHashes ∧
    spec.inputAssetHashes ⊆ stageInputs s w own
  frame : ∀ w f, s.frameOf w = some f → ∃ own, submittedSpec as w = some own ∧
    (∀ dep ∈ own.dependsOn, Succeeded s dep) ∧
    f.spec.dependsOn = own.dependsOn ∧ f.spec.inputAssetHashes = stageInputs s w own

theorem pipelineInv_init : PipelineInv [] {} := by
  refine ⟨ledgerInv_init, dispatchInv_init, @filed_run (sampleConfig 1) {} [] rfl,
    fun w hc => ?_, fun w f d hat => ?_, fun w _ => ⟨rfl, rfl⟩, fun w spec hspec => ?_,
    fun w f hf => ?_⟩
  · cases hc
  · rcases hat with hat | ⟨r, t, hat⟩ <;> cases hat
  · cases hspec
  · cases hf

variable {as : List Action}

theorem stageInputs_mono (hs : PipelineInv as s) (hg : KeepsPipeline cfg s a)
    (h : step cfg s a = some s') (hhash : checkpointHashes s w ⊆ checkpointHashes s' w)
    (own : WorkloadSpec) : stageInputs s w own ⊆ stageInputs s' w own :=
  Finset.union_subset_union (Finset.union_subset_union_right hhash)
    (dependencyOutputs_mono hs.completed hg h own.dependsOn)

/-- The records after a step that is no restart. -/
theorem pipeline_record (hs : PipelineInv as s) (hg : KeepsPipeline cfg s a)
    (hrestart : a.isRestart = false) (h : step cfg s a = some s') {spec : WorkloadSpec}
    (hspec' : s'.specOf w = some spec) : ∃ own, submittedSpec (as ++ [a]) w = some own ∧
      spec.dependsOn = own.dependsOn ∧
      own.inputAssetHashes ∪ checkpointHashes s' w ⊆ spec.inputAssetHashes ∧
      spec.inputAssetHashes ⊆ stageInputs s' w own := by
  cases step_inputs hs.ledger hs.dispatches hs.filed hs.unsaved hrestart h w with
  | same hspec hhash =>
    obtain ⟨own, hown, hdeps, hlow, hhigh⟩ := hs.record w spec (hspec ▸ hspec')
    refine ⟨own, submittedSpec_of_some hown a, hdeps, by rw [hhash]; exact hlow, ?_⟩
    exact hhigh.trans (stageInputs_mono hs hg h hhash.ge own)
  | submitted spec₀ ha hw hnew hspec hhash =>
    obtain rfl := Option.some.inj (hspec'.symm.trans hspec)
    obtain ⟨hnone, hempty⟩ := hs.unknown w hnew
    refine ⟨spec, ?_, rfl, ?_, ?_⟩
    · rw [submittedSpec_append, hnone, ha]
      simp only [submittedSpec, List.findSome?_cons, hw, if_true]
      rfl
    · rw [hhash, hempty, Finset.union_empty]
    · exact Finset.subset_union_left.trans Finset.subset_union_left
  | checkpoint f hash hf hret hspec hhash =>
    obtain ⟨own, hown, hready, hdeps, hinputs⟩ := hs.frame w f hf
    rw [hspec] at hspec'
    obtain ⟨old, -, rfl⟩ := Option.map_eq_some_iff.1 hspec'
    have hinsert : insert hash (stageInputs s w own) = stageInputs s' w own := by
      rw [stageInputs, stageInputs, hhash, dependencyOutputs_eq hs.completed hg h hready,
        Finset.union_insert, Finset.insert_union]
    refine ⟨own, submittedSpec_of_some hown a, hdeps, ?_, ?_⟩
    · show _ ⊆ insert hash f.spec.inputAssetHashes
      rw [hinputs, hinsert]
      exact Finset.subset_union_left
    · show insert hash f.spec.inputAssetHashes ⊆ _
      rw [hinputs, hinsert]

theorem pipeline_frame (hs : PipelineInv as s) (hg : KeepsPipeline cfg s a)
    (hrestart : a.isRestart = false) (h : step cfg s a = some s') (hf' : s'.frameOf w = some f) :
    ∃ own, submittedSpec (as ++ [a]) w = some own ∧ (∀ dep ∈ own.dependsOn, Succeeded s' dep) ∧
      f.spec.dependsOn = own.dependsOn ∧ f.spec.inputAssetHashes = stageInputs s' w own := by
  have hkeeps : ∀ dep, Succeeded s dep → Succeeded s' dep := by
    rintro dep ⟨result, hout, hsucc⟩
    exact ⟨result, (Succeeded.step hs.completed hg h ⟨result, hout, hsucc⟩).trans hout, hsucc⟩
  -- a run with a frame does not record a checkpoint
  have hhash : checkpointHashes s' w = checkpointHashes s w := by
    cases step_inputs hs.ledger hs.dispatches hs.filed hs.unsaved hrestart h w with
    | same hspec hhash => exact hhash
    | submitted spec₀ ha hw hnew hspec hhash => exact hhash
    | checkpoint f₀ hash hf hret =>
      rw [frameOf_of_returned hret] at hf'
      cases hf'
  have hsame : ∀ own : WorkloadSpec, (∀ dep ∈ own.dependsOn, Succeeded s dep) →
      stageInputs s' w own = stageInputs s w own := by
    intro own hready
    rw [stageInputs, stageInputs, hhash, dependencyOutputs_eq hs.completed hg h hready]
  cases step_frameOf hs.ledger.plain hrestart h hf' with
  | carried f₀ hf hspec =>
    obtain ⟨own, hown, hready, hdeps, hinputs⟩ := hs.frame w f₀ hf
    refine ⟨own, submittedSpec_of_some hown a, fun dep hdep => hkeeps dep (hready dep hdep), ?_, ?_⟩
    · rw [hspec, hdeps]
    · rw [hspec, hinputs, hsame own hready]
  | entered r spec ha hr hready hout hspec =>
    have hold : s.specOf w = some r.spec := by rw [State.specOf, hr]; rfl
    obtain ⟨own, hown, hdeps, hlow, hhigh⟩ := hs.record w r.spec hold
    obtain ⟨hsucc, hinputs⟩ := specWithDependencyOutputs_inputs hout
    rw [hdeps] at hsucc hinputs
    refine ⟨own, submittedSpec_of_some hown a, fun dep hdep => hkeeps dep (hsucc dep hdep), ?_, ?_⟩
    · rw [hspec, specWithDependencyOutputs_eq hout, ← hdeps]
    · rw [hspec, hinputs, hsame own hsucc]
      refine Finset.Subset.antisymm (Finset.union_subset hhigh Finset.subset_union_right) ?_
      exact Finset.union_subset_union_left hlow

/-- The records that a restart has read back. -/
theorem pipeline_restart {now : ℚ} (hs : PipelineInv as s) (hg : KeepsPipeline cfg s (.restart now))
    {spec : WorkloadSpec} (hspec : (s.restart cfg now).specOf w = some spec) :
    ∃ own, submittedSpec (as ++ [.restart now]) w = some own ∧ spec.dependsOn = own.dependsOn ∧
      own.inputAssetHashes ∪ checkpointHashes (s.restart cfg now) w ⊆ spec.inputAssetHashes ∧
      spec.inputAssetHashes ⊆ stageInputs (s.restart cfg now) w own := by
  have hhash := @checkpointHashes_restart cfg s now hs.ledger.ledger hg.1 w
  obtain ⟨r, r', hr, hr', rfl⟩ := specOf_restart hspec
  have hold : s.specOf w = some r.spec := by rw [State.specOf, hr]; rfl
  obtain ⟨own, hown, hdeps, hlow, hhigh⟩ := hs.record w r.spec hold
  have hinputs : r'.spec.inputAssetHashes = r.spec.inputAssetHashes := by
    obtain ⟨r₁, hr₁, hinputs⟩ := hg.2 r (Dict.mem_values.2 ⟨w, hr⟩)
    obtain rfl := Option.some.inj (hr'.symm.trans hr₁)
    exact hinputs
  refine ⟨own, submittedSpec_of_some hown _, ?_, ?_, ?_⟩
  · rw [(StateStore.reloadWorkload_some hr').2.2.1, hdeps]
  · rw [hhash, hinputs]
    exact hlow
  · rw [hinputs]
    exact hhigh.trans (stageInputs_mono hs hg rfl hhash.ge own)

theorem specOf_submitWorkload (s : State) (spec : WorkloadSpec) :
    (s.submitWorkload cfg spec).specOf spec.workloadId ≠ none := by
  unfold State.submitWorkload State.addWorkload State.specOf
  cases hr : s.workloads.get? spec.workloadId with
  | some existing =>
    dsimp only
    split_ifs
    · dsimp only
      rw [(enqueueWorkload_cases s _).2, hr]
      exact Option.some_ne_none _
    · dsimp only
      rw [hr]
      exact Option.some_ne_none _
  | none =>
    dsimp only
    rw [(enqueueWorkload_cases _ _).2, Dict.get?_set, if_pos rfl]
    exact Option.some_ne_none _

theorem submittedSpec_of_unknown (h : step cfg s a = some s') (hw : s'.specOf w = none) :
    submittedSpec [a] w = none := by
  cases a with
  | submitWorkload spec =>
    obtain rfl := Option.some.inj h
    simp only [submittedSpec, List.findSome?_cons]
    rw [if_neg]
    · rfl
    · rintro rfl
      exact specOf_submitWorkload s spec hw
  | _ => rfl

theorem pipeline_unknown (hs : PipelineInv as s) (hg : KeepsPipeline cfg s a)
    (h : step cfg s a = some s') (hw : s'.specOf w = none) :
    submittedSpec (as ++ [a]) w = none ∧ checkpointHashes s' w = ∅ := by
  rw [submittedSpec_append, submittedSpec_of_unknown h hw, Option.or_none]
  cases hrestart : a.isRestart with
  | true =>
    obtain ⟨now, rfl, rfl⟩ := restart_of_step hrestart h
    rw [checkpointHashes_restart hs.ledger.ledger hg.1]
    refine hs.unknown w ?_
    cases hr : s.workloads.get? w with
    | none => rw [State.specOf, hr]; rfl
    | some r =>
      -- a row that is read back gives a record
      obtain ⟨r', hr', -⟩ := hg.2 r (Dict.mem_values.2 ⟨w, hr⟩)
      have hr' : StateStore.reloadWorkload cfg.floatRepr r = some r' := hr'
      rw [State.specOf, workloads_restart, hr, Option.bind_some, hr'] at hw
      cases hw
  | false =>
    cases step_inputs hs.ledger hs.dispatches hs.filed hs.unsaved hrestart h w with
    | same hspec hhash =>
      rw [hhash]
      exact hs.unknown w (hspec ▸ hw)
    | submitted spec ha hid hnew hspec hhash =>
      rw [hw] at hspec
      cases hspec
    | checkpoint f hash hf hret hspec hhash =>
      obtain ⟨own, hown, -⟩ := hs.frame w f hf
      rw [hspec, Option.map_eq_none_iff] at hw
      rw [(hs.unknown w hw).1] at hown
      cases hown

theorem pipelineInv_step (hs : PipelineInv as s) (hg : KeepsPipeline cfg s a)
    (h : step cfg s a = some s') : PipelineInv (as ++ [a]) s' := by
  have hreads : ReadsBack s a := by
    cases a with
    | restart now => exact hg.1
    | _ => trivial
  refine ⟨ledgerInv_step hs.ledger hreads h, dispatchInv_step hs.dispatches h,
    filed_step hs.filed h, completedInv_step hs.ledger.plain hs.completed h,
    unsaved_step hs.dispatches hs.unsaved h, fun w hw => pipeline_unknown hs hg h hw,
    fun w spec hspec => ?_, fun w f hf => ?_⟩
  · cases hrestart : a.isRestart with
    | false => exact pipeline_record hs hg hrestart h hspec
    | true =>
      obtain ⟨now, rfl, rfl⟩ := restart_of_step hrestart h
      exact pipeline_restart hs hg hspec
  · cases hrestart : a.isRestart with
    | false => exact pipeline_frame hs hg hrestart h hf
    | true =>
      obtain ⟨now, rfl, rfl⟩ := restart_of_step hrestart h
      rw [frameOf_restart] at hf
      cases hf

theorem pipelineInv_run (hg : Along (step cfg) (KeepsPipeline cfg) {} as)
    (h : runSteps cfg {} as = some s) : PipelineInv as s :=
  hg.history (fun _ _ _ _ _ hs hp hstep => pipelineInv_step hs hp hstep) pipelineInv_init h

theorem place_of_idsOf {id : String} (hplain : DrainsPlain s) (h : step cfg s a = some s')
    (hnew : s'.attempts.idsOf w = s.attempts.idsOf w ++ [id]) :
    ∃ ranking now execId, a = .place w ranking now execId := by
  have hlong : (s'.attempts.idsOf w).length = (s.attempts.idsOf w).length + 1 := by
    rw [hnew, List.length_append, List.length_singleton]
  by_cases hplace : ∃ v ranking now execId, a = .place v ranking now execId
  · obtain ⟨v, ranking, now, execId, rfl⟩ := hplace
    by_cases hw : w = v
    · subst hw
      exact ⟨ranking, now, execId, rfl⟩
    · rw [idsOf_place_of_ne hw h] at hlong
      omega
  · cases hrestart : a.isRestart with
    | true =>
      obtain ⟨now, rfl, rfl⟩ := restart_of_step hrestart h
      have hids :
          ((s.restart cfg now).attempts.idsOf w).length ≤ (s.attempts.idsOf w).length := by
        show ((State.restoreAttempts s.attempts).idsOf w).length ≤ _
        rw [idsOf_restoreAttempts]
        exact List.length_filter_le _ _
      omega
    | false =>
      have hids := idsOf_of_not_place (w := w) hplain hrestart
        (fun v ranking now execId ha => hplace ⟨v, ranking, now, execId, ha⟩) h
      rw [hids] at hlong
      omega

/-- **Pipeline safety.** Along a run in which no cancellation ends after its workload has completed,
an attempt is made only when all dependencies of the workload have completed with a successful
result, and it is dispatched with the inputs that the workload was submitted with, its recorded
checkpoints and the outputs of its dependencies. -/
theorem pipeline_safety {id : String} (hg : Along (step cfg) (KeepsPipeline cfg) {} as)
    (hrun : runSteps cfg {} as = some s) (h : step cfg s a = some s')
    (hnew : s'.attempts.idsOf w = s.attempts.idsOf w ++ [id]) :
    ∃ own, submittedSpec as w = some own ∧ (∀ dep ∈ own.dependsOn, Succeeded s dep) ∧
      ∀ f d, s'.runs.get? w = some (.dispatch f d) →
        f.spec.inputAssetHashes = own.inputAssetHashes ∪ checkpointHashes s w ∪
          dependencyOutputs s own.dependsOn := by
  have hs := pipelineInv_run hg hrun
  obtain ⟨ranking, now, execId, rfl⟩ := place_of_idsOf hs.ledger.plain h hnew
  obtain ⟨f₀, hpc, -, hcases⟩ := place_spec h
  have hf₀ : s.frameOf w = some f₀ := by rw [State.frameOf, hpc]
  obtain ⟨own, hown, hready, -, hinputs⟩ := hs.frame w f₀ hf₀
  refine ⟨own, hown, hready, fun f d hd => ?_⟩
  have hf : s'.frameOf w = some f := by rw [State.frameOf, hd]
  cases step_frameOf hs.ledger.plain rfl h hf with
  | carried f₁ hf₁ hspec =>
    obtain rfl := Option.some.inj (hf₀.symm.trans hf₁)
    rw [hspec, hinputs]
    rfl
  | entered r spec ha => cases ha

/-! ## Sample runs -/

/-- A hash of one digit. -/
def sampleHash (digit : Char) : String := String.ofList (List.replicate 64 digit)

/-- The success of a workload, with one output. -/
def stageResult (w x : String) : WorkloadExecutionResult where
  workloadId := w
  workerId := x
  success := true
  outputAssetHashes := {sampleHash 'b'}
  executionDurationSeconds := 1

/-- A stage with an input of its own that depends on the workload `v`. -/
def stageSpec : WorkloadSpec :=
  { sampleSpec "w" with dependsOn := ["v"], inputAssetHashes := {sampleHash 'a'} }

/-- The first stage completes, and the second waits for the placement lock. -/
def pipelineSample : List Action :=
  dispatchSample ["a", "b"] "v" ++
    [.submitWorkload stageSpec, .callEvent "v" 0 (.bareResult (stageResult "v" "a")), .resume "v" 1,
      .admissionPass ["w"], .startRun "w"]

/-- The dispatch that a run waits for. -/
def dispatchOf (s : State) (w : String) : Option (Frame × Dispatch) :=
  match s.runs.get? w with
  | some (.dispatch f d) => some (f, d)
  | _ => none

theorem runs_of_dispatchOf {p : Frame × Dispatch} (h : dispatchOf s w = some p) :
    s.runs.get? w = some (.dispatch p.1 p.2) := by
  unfold dispatchOf at h
  split at h
  · rename_i hpc
    obtain rfl := Option.some.inj h
    exact hpc
  · cases h

/-- The second stage of a pipeline gets its own input and the output of the first. -/
theorem pipeline_safety_stage :
    ∃ s s' f d, runSteps (sampleConfig 2) {} pipelineSample = some s ∧
      step (sampleConfig 2) s (.place "w" sampleRanking 1 "group") = some s' ∧
      s'.runs.get? "w" = some (.dispatch f d) ∧ Succeeded s "v" ∧
      f.spec.inputAssetHashes = {sampleHash 'a'} ∪ ∅ ∪ {sampleHash 'b'} := by
  have hguard :
      Along (step (sampleConfig 2)) (KeepsPipeline (sampleConfig 2)) {} pipelineSample := by
    decide +kernel
  have hrun : (runSteps (sampleConfig 2) {} pipelineSample).bind (fun s =>
      (step (sampleConfig 2) s (.place "w" sampleRanking 1 "group")).bind fun s' =>
        (dispatchOf s' "w").map fun _ => decide (
          s'.attempts.idsOf "w" = s.attempts.idsOf "w" ++ ["w#1"] ∧
          checkpointHashes s "w" = ∅ ∧ dependencyOutputs s ["v"] = {sampleHash 'b'})) =
      some true := by decide +kernel
  obtain ⟨s, hs, hv⟩ := Option.bind_eq_some_iff.1 hrun
  obtain ⟨s', hs', hv⟩ := Option.bind_eq_some_iff.1 hv
  obtain ⟨⟨f, d⟩, hd, hv⟩ := Option.map_eq_some_iff.1 hv
  obtain ⟨hids, hhash, houtputs⟩ := of_decide_eq_true hv
  have hd := runs_of_dispatchOf hd
  obtain ⟨own, hown, hready, hinputs⟩ := pipeline_safety hguard hs hs' hids
  have hspec : submittedSpec pipelineSample "w" = some stageSpec := by decide +kernel
  obtain rfl := Option.some.inj (hspec.symm.trans hown)
  refine ⟨s, s', f, d, hs, hs', hd, hready "v" (List.mem_singleton_self _), ?_⟩
  rw [hinputs f d hd, ← hhash, ← houtputs]
  rfl

/-- The first stage completes after its cancellation was requested, and the second enters its loop;
then the cancellation ends. -/
def cancelledStageSample : List Action :=
  dispatchSample ["a", "b"] "v" ++
    [.submitWorkload stageSpec, .cancelStart "v",
      .callEvent "v" 0 (.submitUnavailable "refused"), .resume "v" 1,
      .place "v" sampleRanking 1 "group", .callEvent "v" 0 (.bareResult (stageResult "v" "b")),
      .resume "v" 2, .admissionPass ["w"], .startRun "w", .cancelFinish "v"]

/-- A stage is placed although the workload it depends on is cancelled. -/
theorem stage_placed_after_cancelled :
    ¬ ∀ (cfg : Config) (as : List Action) (a : Action) (s s' : State) (w id : String),
      runSteps cfg {} as = some s → step cfg s a = some s' →
      s'.attempts.idsOf w = s.attempts.idsOf w ++ [id] →
      ∃ own, submittedSpec as w = some own ∧ (∀ dep ∈ own.dependsOn, Succeeded s dep) ∧
        ∀ f d, s'.runs.get? w = some (.dispatch f d) →
          f.spec.inputAssetHashes = own.inputAssetHashes ∪ checkpointHashes s w ∪
            dependencyOutputs s own.dependsOn := by
  intro hclaim
  have hrun : (runSteps (sampleConfig 2) {} cancelledStageSample).bind (fun s =>
      (step (sampleConfig 2) s (.place "w" sampleRanking 2 "group")).map fun s' =>
        decide (s'.attempts.idsOf "w" = s.attempts.idsOf "w" ++ ["w#1"] ∧
          s.stateOf "v" = some .cancelled)) = some true := by decide +kernel
  obtain ⟨s, hs, hv⟩ := Option.bind_eq_some_iff.1 hrun
  obtain ⟨s', hs', hv⟩ := Option.map_eq_some_iff.1 hv
  obtain ⟨hids, hcancelled⟩ := of_decide_eq_true hv
  obtain ⟨own, hown, hready, -⟩ := hclaim _ _ _ s s' "w" "w#1" hs hs' hids
  have hspec : submittedSpec cancelledStageSample "w" = some stageSpec := by decide +kernel
  obtain rfl := Option.some.inj (hspec.symm.trans hown)
  obtain ⟨result, hout, -⟩ := hready "v" (List.mem_singleton_self _)
  rw [stateOf_eq, hout] at hcancelled
  cases hcancelled

end Aidars.Orchestrator
