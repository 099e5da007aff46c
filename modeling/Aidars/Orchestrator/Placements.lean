import Aidars.Orchestrator.Concurrency
import Aidars.Orchestrator.Dispatches
import Aidars.Orchestrator.Recovery

/-!
# The placements that workloads show

The record of a workload shows the decision of its last placement, which is what the placement of
other workloads of its affinity group looks at. Only the run of the workload writes it
(`step_placementOf`), and it is in step with the attempts: every attempt that is active is the one
that a run has dispatched, and while it is the record shows the decision it was made for
(`PlacedInv`). Waits and retries replace the decision when no attempt is active any more.
-/

namespace Aidars.Orchestrator

open AttemptRegistry (Marked)

variable {cfg : Config} {s s' s₁ : State} {w v : String} {a : Action} {f : Frame} {d : Dispatch}
  {reg reg' : AttemptRegistry} {r : AttemptRecord}

/-- The workload shows the decision it showed. -/
def SamePlacement (v : String) (s s' : State) : Prop := s'.placementOf v = s.placementOf v

/-! ## The segments of another run -/

theorem placementOf_checkpointResult (s : State) (hne : v ≠ w) (f : Frame) (d : Dispatch)
    (r : WorkloadExecutionResult) : SamePlacement v s (s.checkpointResult w f d r) := by
  have hsome : some w ≠ some v := fun he => hne (Option.some.inj he).symm
  have hmigrating : SamePlacement v s (s.updateState w .migrating) :=
    (KeepsRecords.updateState s w .migrating none).placements hsome
  unfold State.checkpointResult
  dsimp only
  refine Eq.trans ((KeepsRecords.resubmit _ w).placements hsome) ?_
  split
  · exact Eq.trans (placementOf_modifyWorkload _ (.inr fun _ => rfl)) hmigrating
  · exact hmigrating

theorem placementOf_settleResult (s : State) (hne : v ≠ w) (f : Frame) (d : Dispatch)
    (r : WorkloadExecutionResult) (u : PySet String) (b : Bool) (now : ℚ) :
    SamePlacement v s (s.settleResult cfg w f d r u b now) := by
  have hsome : some w ≠ some v := fun he => hne (Option.some.inj he).symm
  unfold State.settleResult
  split_ifs
  · exact placementOf_checkpointResult s hne f d r
  · exact (keepsRecords_successResult s w f d r).placements hsome
  · exact (failureResult_spec s w f d r u b now).1.placements hsome

theorem placementOf_lostGroupResult (s : State) (hne : v ≠ w) (f : Frame) (d : Dispatch)
    (r : WorkloadExecutionResult) (t : PySet String) (now : ℚ) :
    SamePlacement v s (s.lostGroupResult cfg w f d r t now) :=
  placementOf_settleResult s hne f d _ _ true now

theorem placementOf_handleReply (s : State) (hne : v ≠ w) (f : Frame) (d : Dispatch) (now : ℚ)
    (reply : Reply) : SamePlacement v s (s.handleReply cfg w f d now reply) := by
  have hsome : some w ≠ some v := fun he => hne (Option.some.inj he).symm
  cases reply with
  | result r u t =>
    show SamePlacement v s (s.handleResult cfg w f d r u t now)
    unfold State.handleResult
    dsimp only
    split_ifs
    · exact (keepsRecords_cancelledResult s w d _).placements hsome
    · split
      · rfl
      · exact placementOf_lostGroupResult s hne f d _ t now
    · exact placementOf_settleResult s hne f d _ u false now
  | recordLost m | submitUnavailable m =>
    exact (KeepsRecords.retryOrFail _ w _ _ _).placements hsome
  | otherException m => exact (keepsRecords_handleOtherException s w f d m now).placements hsome

theorem placementOf_drainResume (hne : v ≠ w) {now : ℚ} (h : s.drainResume cfg w now = some s') :
    SamePlacement v s s' := by
  unfold State.drainResume at h
  split at h
  · rename_i f d r t _
    split_ifs at h
    obtain rfl := Option.some.inj h
    exact placementOf_lostGroupResult { s with drainEvents := s.drainEvents.erase d.attemptId }
      hne f
      d r t now
  · cases h

/-- The segments of a run leave the placements of other workloads alone. -/
theorem placementOf_segment (hseg : a.segmentOf = some w) (hne : v ≠ w)
    (h : step cfg s a = some s') : SamePlacement v s s' := by
  have hsome : some w ≠ some v := fun he => hne (Option.some.inj he).symm
  cases segment_of_eq hseg with
  | startRun =>
    exact (startRun_spec h).1.placements hsome
  | place ranking now execId =>
    obtain ⟨f₀, -, hkeeps, -⟩ := place_spec h
    exact hkeeps.placements hsome
  | callEvent i event =>
    obtain ⟨f', d', c, phase, -, rfl⟩ := advanceCall_cases h
    rfl
  | resume now =>
    obtain ⟨f, d, reply, -, -, rfl, -⟩ := resume_cases h
    exact placementOf_handleReply s hne f d now reply
  | drainResume now =>
    exact placementOf_drainResume hne h
  | finishRun =>
    exact (KeepsRecords.of_workloads (finishRun_cases h).2.2.1).placements (o := none) nofun

/-! ## All steps -/

theorem placementOf_submitWorkload (s : State) (spec : WorkloadSpec) :
    SamePlacement v s (s.submitWorkload cfg spec) := by
  have henqueue : ∀ s₀ : State, SamePlacement v s₀ (s₀.enqueueWorkload spec.workloadId) :=
    fun s₀ =>
      (KeepsRecords.of_workloads (enqueueWorkload_cases s₀ _).2).placements (o := none) nofun
  unfold State.submitWorkload State.addWorkload
  cases hrecord : s.workloads.get? spec.workloadId with
  | some existing =>
    dsimp only
    split_ifs
    · exact henqueue s
    · rfl
  | none =>
    refine Eq.trans (henqueue _) ?_
    rw [State.placementOf, State.placementOf, Dict.get?_set]
    split_ifs with hv
    · rw [hv, hrecord]
      rfl
    · rfl

/-- **Only the run of a workload changes the placement that it shows.** -/
theorem step_placementOf (hrestart : a.isRestart = false) (hseg : a.segmentOf ≠ some v)
    (h : step cfg s a = some s') : SamePlacement v s s' := by
  cases hw : a.segmentOf with
  | some w => exact placementOf_segment hw (fun he => hseg (he ▸ hw)) h
  | none =>
    by_cases hsubmit : ∃ spec, a = .submitWorkload spec
    · obtain ⟨spec, rfl⟩ := hsubmit
      obtain rfl := Option.some.inj h
      exact placementOf_submitWorkload s spec
    · exact (keepsRecords_outside hw hrestart (fun spec ha => hsubmit ⟨spec, ha⟩) h).placements hseg

/-! ## The specification of a run -/

/-- The specifications differ in inputs and parameters at most. -/
def SameButInputs (spec spec' : WorkloadSpec) : Prop :=
  spec' = { spec with
    inputAssetHashes := spec'.inputAssetHashes, parameters := spec'.parameters }

/-- Every run carries the specification of its workload, but for inputs and parameters. -/
def CarriesOwnSpec (s : State) : Prop :=
  ∀ w f, s.frameOf w = some f → ∃ spec, s.specOf w = some spec ∧ SameButInputs spec f.spec

theorem carriesOwnSpec_step (hfiled : Filed s) (hs : CarriesOwnSpec s)
    (h : step cfg s a = some s') : CarriesOwnSpec s' := by
  intro w f' hf'
  cases hrestart : a.isRestart with
  | true =>
    obtain ⟨now, rfl, rfl⟩ := restart_of_step hrestart h
    rw [frameOf_restart] at hf'
    cases hf'
  | false =>
    cases step_frameOf hfiled.1 hrestart h hf' with
    | carried f hf hspec =>
      obtain ⟨spec, hold, hsame⟩ := hs w f hf
      rw [hspec]
      cases step_specOf hfiled.1 hrestart h w with
      | same he => exact ⟨spec, he.trans hold, hsame⟩
      | submitted spec' ha hv hnew he =>
        rw [hold] at hnew
        cases hnew
      | checkpoint u now f₁ d r hash ha hpc hv hc hhash hattempts hret he =>
        -- the run that reached the checkpoint has returned
        have hid := (hfiled.2.frame u f₁ (by rw [State.frameOf, hpc])).1
        obtain rfl : w = u := hv.trans hid
        rw [frameOf_of_returned hret] at hf'
        cases hf'
    | entered r spec ha hr hready hout hspec =>
      have hold : s.specOf w = some r.spec := by rw [State.specOf, hr]; rfl
      refine ⟨r.spec, ?_, ?_⟩
      · cases step_specOf hfiled.1 hrestart h w with
        | same he => exact he.trans hold
        | submitted spec' ha' =>
          rw [ha] at ha'
          cases ha'
        | checkpoint u now f₁ d r₁ hash ha' =>
          rw [ha] at ha'
          cases ha'
      · rw [hspec, SameButInputs, specWithDependencyOutputs_eq hout]

/-! ## Active attempts -/

/-- A mark leaves no attempt active, so an attempt that is active was so before and is unchanged. -/
theorem active_of_marked {P : AttemptRegistry → String → Mark → Prop}
    (h : Marked P reg reg') {id : String} (hr : reg'.getAttempt id = some r)
    (hactive : r.status.isActive = true) : reg.getAttempt id = some r := by
  induction h with
  | refl => exact hr
  | step reg₂ id₀ m _ _ ih =>
    rw [AttemptRegistry.getAttempt_mark] at hr
    split_ifs at hr
    · obtain ⟨r₂, -, rfl⟩ := Option.map_eq_some_iff.1 hr
      cases m <;> cases hactive
    · exact ih hr

theorem Settled.status {id : String} {st : AttemptStatus} (h : Settled w id reg st reg')
    (hr : reg'.getAttempt id = some r) : r.status = st := by
  cases h with
  | failed c m r₀ =>
    rw [AttemptRegistry.markFailed, AttemptRegistry.getAttempt_update, if_pos rfl] at hr
    obtain ⟨r₂, -, rfl⟩ := Option.map_eq_some_iff.1 hr
    rfl
  | lost m u =>
    rw [AttemptRegistry.markLost, AttemptRegistry.getAttempt_update, if_pos rfl] at hr
    obtain ⟨r₂, -, rfl⟩ := Option.map_eq_some_iff.1 hr
    rfl
  | checkpointed r₀ =>
    rw [AttemptRegistry.markSucceeded, AttemptRegistry.getAttempt_update, if_pos rfl] at hr
    obtain ⟨r₂, -, rfl⟩ := Option.map_eq_some_iff.1 hr
    rfl
  | succeeded r₀ ids hids =>
    rw [AttemptRegistry.markSucceeded, AttemptRegistry.getAttempt_update, if_pos rfl] at hr
    obtain ⟨r₂, -, rfl⟩ := Option.map_eq_some_iff.1 hr
    rfl

theorem AtAttempt.foreign (hp : RunsProcessing s) (hseg : a.segmentOf ≠ some w)
    (hrestart : a.isRestart = false) (h : step cfg s a = some s') (hat : AtAttempt s w f d) :
    AtAttempt s' w f d := by
  cases step_foreign h hseg hrestart with
  | kept hrun => exact (atAttempt_congr hrun.runs).2 hat
  | submitted hrun => exact (atAttempt_congr hrun.runs).2 hat
  | admitted hpending =>
    refine absurd (hp w fun hnone => ?_) hpending.2
    rcases hat with hat | ⟨r, t, hat⟩ <;> rw [hnone] at hat <;> cases hat
  | blocked hpending hrun => exact (atAttempt_congr hrun.runs).2 hat
  | cancelled st hst hrun => exact (atAttempt_congr hrun.runs).2 hat

/-- The attempts listed for a workload have identifiers of the workload. -/
def ListsOwnIds (reg : AttemptRegistry) : Prop :=
  ∀ w, ∀ id ∈ reg.idsOf w, ∃ n, id = makeAttemptId w n

theorem listsOwnIds_step (hs : DispatchInv s) (hlists : ListsOwnIds s.attempts)
    (h : step cfg s a = some s') : ListsOwnIds s'.attempts := by
  intro w id hid
  cases step_attemptStep hs h with
  | placed v ranking now execId f₀ p rest ha hpc hchoose hrec =>
    rw [idsOf_recorded hrec, attempts_promoteSpare] at hid
    split_ifs at hid with hw
    · rw [hw]
      rcases List.mem_append.1 hid with hid | hid
      · exact hlists v id hid
      · exact ⟨_, List.mem_singleton.1 hid⟩
    · exact hlists w id hid
  | restarted ha hattempts hruns =>
    rw [hattempts, idsOf_restoreAttempts] at hid
    exact hlists w id (List.mem_of_mem_filter hid)
  | answered v f₀ d₀ reply ha hat hreports hmarked =>
    rw [hmarked.idsOf] at hid
    exact hlists w id hid
  | evicted ha hmarked =>
    rw [hmarked.idsOf] at hid
    exact hlists w id hid
  | same hattempts =>
    rw [hattempts] at hid
    exact hlists w id hid

/-- The decisions that workloads show are those of their active attempts. -/
structure PlacedInv (s : State) : Prop where
  dispatches : DispatchInv s
  lists : ListsOwnIds s.attempts
  processing : RunsProcessing s
  filed : Filed s
  carries : CarriesOwnSpec s
  active : ∀ id r, s.attempts.getAttempt id = some r → r.status.isActive = true →
    ∃ w f d, AtAttempt s w f d ∧ d.attemptId = id
  shown : ∀ w f d, AtAttempt s w f d → s.placementOf w = some d.decision

theorem placedInv_init : PlacedInv {} := by
  have hat : ∀ {w : String} {f : Frame} {d : Dispatch}, ¬ AtAttempt {} w f d := by
    rintro w f d (hat | ⟨r, t, hat⟩) <;> cases hat
  have hfiled : Filed {} := @filed_run (sampleConfig 1) {} [] rfl
  refine ⟨dispatchInv_init, fun w id hid => ?_, fun w hw => absurd rfl hw, hfiled,
    fun w f hf => ?_, fun id r hr => ?_, fun w f d h => absurd h hat⟩
  · cases hid
  · cases hf
  · cases hr

theorem placementOf_recordAttempt (hspec : (s.specOf w).isSome = true) (p : PlacementDecision)
    (g : Option ExecutionGroup) : (s.recordAttempt w p g).placementOf w = some p := by
  obtain ⟨spec, hspec⟩ := Option.isSome_iff_exists.1 hspec
  obtain ⟨r, hr, -⟩ := Option.map_eq_some_iff.1 hspec
  simp only [State.placementOf, State.recordAttempt, State.updateState, State.setPlacement,
    State.modifyWorkload, Dict.get?_modify, if_true, hr, Option.map_some, Option.bind_some]

/-- A workload that has been dispatched shows the decision of its dispatch. -/
theorem placementOf_dispatched {ranking : Ranking} {now : ℚ} {execId : String}
    (hspec : (s.specOf w).isSome = true) (h : s.place cfg w ranking now execId = some s')
    (hat : AtAttempt s' w f d) : s'.placementOf w = some d.decision := by
  unfold State.place at h
  split at h
  · rename_i f₀ hpc
    dsimp only at h
    have hnone : ∀ s₁ : State, s₁.noDecision w (s.promoteSpare f₀).2 = s' → False := by
      rintro s₁ rfl
      exact not_atAttempt_of_returned (noDecision_cases s₁ w _).2.2 hat
    split_ifs at h
    · obtain rfl := Option.some.inj h
      exact absurd hat (not_atAttempt_of_returned (returned_returnRun _ w))
    · split at h
      · exact (hnone _ (Option.some.inj h)).elim
      · exact (hnone _ (Option.some.inj h)).elim
      · rename_i p rest _
        have hlaunch := (Option.some.inj h).symm
        have hshown : s'.placementOf w = some p := by
          rw [hlaunch]
          refine Eq.trans ((keepsRecords_launch _ w _ _ _ _ _).placements (o := none) nofun)
            (placementOf_recordAttempt ?_ p _)
          rw [(KeepsRecords.promoteSpare (o := none) s f₀).specs w]
          exact hspec
        obtain ⟨-, hrec⟩ := launch_recorded _ w _ execId p rest _ s' hlaunch
        cases hrec with
        | dispatched d' hpc' hmade =>
          have hp : p = d'.decision := Option.some.inj hmade.decision
          rcases hat with hat | ⟨r, t, hat⟩
          · rw [hpc'] at hat
            cases hat
            rw [hshown, hp]
          · rw [hpc'] at hat
            cases hat
        | vanished m missing hmissing ha hgoes => exact absurd hat (not_atAttempt_of_goesOn hgoes)
  · cases h

theorem shown_step (hs : PlacedInv s) (h : step cfg s a = some s') (hat : AtAttempt s' w f d) :
    s'.placementOf w = some d.decision := by
  rcases step_atAttempt hs.dispatches.plain h hat with hseg | ⟨hseg, hrestart, hruns⟩
  · cases hseg with
    | placed ranking now execId f₀ p rest ha hpc =>
      subst ha
      obtain ⟨spec, hspec, -⟩ := hs.carries w f₀ (by rw [State.frameOf, hpc])
      exact placementOf_dispatched (by rw [hspec]; rfl) h hat
    | called d₀ hpc heq hid hdec =>
      rw [heq, hdec]
      exact hs.shown w f d₀ (.inl hpc)
    | drained reply r t hpc heq =>
      rw [heq]
      exact hs.shown w f d (.inl hpc)
  · rw [step_placementOf hrestart hseg h]
    exact hs.shown w f d ((atAttempt_congr hruns).1 hat)

theorem active_cases (hs : DispatchInv s) (hrestart : a.isRestart = false)
    (h : step cfg s a = some s') {id : String} (hr : s'.attempts.getAttempt id = some r)
    (hactive : r.status.isActive = true) : s.attempts.getAttempt id = some r ∨
      ∃ v f d, AtAttempt s' v f d ∧ d.attemptId = id ∧ a.segmentOf = some v ∧
        id = s.attempts.nextId v := by
  cases step_attemptStep hs h with
  | placed v ranking now execId f₀ p rest ha hpc hchoose hrec =>
    obtain ⟨r₀, hopen, hget⟩ := getAttempt_recorded hrec
    rw [hget, attempts_promoteSpare] at hr
    split_ifs at hr with hid
    · obtain rfl := Option.some.inj hr
      cases hrec with
      | dispatched d hd hmade hnext =>
        rw [attempts_promoteSpare] at hnext
        exact .inr ⟨v, _, d, .inl hd, hnext.trans hid.symm, by rw [ha]; rfl, hid⟩
      | vanished m missing hmissing hattempts =>
        have hlost := hget id
        rw [hattempts, AttemptRegistry.markLost, AttemptRegistry.getAttempt_update,
          attempts_promoteSpare, if_pos hid, if_pos hid] at hlost
        obtain ⟨r₁, -, rfl⟩ := Option.map_eq_some_iff.1 hlost
        cases hactive
    · exact .inl hr
  | restarted ha => rw [hrestart] at ha; cases ha
  | answered v f₀ d₀ reply ha hat hreports hmarked =>
    exact .inl (active_of_marked hmarked hr hactive)
  | evicted ha hmarked => exact .inl (active_of_marked hmarked hr hactive)
  | same hattempts =>
    rw [hattempts] at hr
    exact .inl hr

theorem atAttempt_of_active (hs : PlacedInv s) (hrestart : a.isRestart = false)
    (h : step cfg s a = some s') (hat : AtAttempt s w f d)
    (hr : s'.attempts.getAttempt d.attemptId = some r) (hactive : r.status.isActive = true) :
    ∃ f' d', AtAttempt s' w f' d' ∧ d'.attemptId = d.attemptId := by
  have hsettled : ∀ st, Settled w d.attemptId s.attempts st s'.attempts → False := by
    intro st hst
    rw [hst.status hr, hst.not_active] at hactive
    cases hactive
  by_cases hseg : a.segmentOf = some w
  · cases segment_of_eq hseg with
    | startRun =>
      obtain ⟨hpc, -⟩ := startRun_cases h
      rcases hat with hat | ⟨r', t, hat⟩ <;> rw [hpc] at hat <;> cases hat
    | place ranking now execId =>
      obtain ⟨f₀, hpc, -⟩ := place_spec h
      exact absurd hat (not_atAttempt_of_lockWait hpc)
    | callEvent i event =>
      obtain ⟨f', d', c, phase, hpc, rfl⟩ := advanceCall_cases h
      rcases hat with hat | ⟨r', t, hat⟩ <;> rw [hpc] at hat <;> cases hat
      exact ⟨f, _, .inl (runs_setPc s w _), rfl⟩
    | resume now =>
      obtain ⟨f', d', reply, hpc, -, -, hhandled⟩ := resume_cases h
      rcases hat with hat | ⟨r', t', hat⟩ <;> rw [hpc] at hat <;> cases hat
      cases hhandled with
      | drained r' t heq =>
        rw [heq]
        exact ⟨f, d, .inr ⟨r', t, runs_setPc s w _⟩, rfl⟩
      | settled st hattempts => exact (hsettled st hattempts).elim
    | drainResume now =>
      obtain ⟨f', d', r', t, hpc, -, hcases⟩ := drainResume_cases h
      rcases hat with hat | ⟨r₁, t₁, hat⟩ <;> rw [hpc] at hat <;> cases hat
      exact (hsettled .lost (hcases (hs.dispatches.plain w f d r' t hpc)).1).elim
    | finishRun =>
      obtain ⟨hpc, -⟩ := finishRun_cases h
      rcases hat with hat | ⟨r', t, hat⟩ <;> rw [hpc] at hat <;> cases hat
  · exact ⟨f, d, hat.foreign hs.processing hseg hrestart h, rfl⟩

/-- **Every step keeps the decisions that workloads show in step with their active attempts.** -/
theorem placedInv_step (hs : PlacedInv s) (h : step cfg s a = some s') : PlacedInv s' := by
  refine ⟨dispatchInv_step hs.dispatches h, listsOwnIds_step hs.dispatches hs.lists h,
    step_runsProcessing hs.processing h, filed_step hs.filed h,
    carriesOwnSpec_step hs.filed hs.carries h, fun id r hr hactive => ?_,
    fun w f d hat => shown_step hs h hat⟩
  cases hrestart : a.isRestart with
  | true =>
    obtain ⟨now, rfl, rfl⟩ := restart_of_step hrestart h
    rw [not_active_restoreAttempts hr] at hactive
    cases hactive
  | false =>
    rcases active_cases hs.dispatches hrestart h hr hactive with hold | ⟨v, f, d, hat, hid, -⟩
    · obtain ⟨w, f, d, hat, rfl⟩ := hs.active id r hold hactive
      obtain ⟨f', d', hat', hid⟩ := atAttempt_of_active hs hrestart h hat hr hactive
      exact ⟨w, f', d', hat', hid⟩
    · exact ⟨v, f, d, hat, hid⟩

/-- **Every active attempt is the one that its workload waits for**: the worker of the attempt is
the one of the decision that the workload shows, and no other attempt of the workload is active. -/
theorem active_attempt_dispatched {as : List Action} (h : runSteps cfg {} as = some s) {id : String}
    (hr : s.attempts.getAttempt id = some r) (hactive : r.status.isActive = true) :
    ∃ w f d, AtAttempt s w f d ∧ d.attemptId = id ∧ id ∈ s.attempts.idsOf w ∧
      s.placementOf w = some d.decision ∧ r.workerId = some d.decision.selectedWorkerId ∧
      ∀ id' ∈ s.attempts.idsOf w, ∀ r', s.attempts.getAttempt id' = some r' →
        r'.status.isActive = true → id' = id := by
  have hs : PlacedInv s := runFrom_invariant (fun _ _ _ => placedInv_step) placedInv_init h
  obtain ⟨w, f, d, hat, rfl⟩ := hs.active id r hr hactive
  have hown := hs.dispatches.own w f d hat
  obtain ⟨r₀, hr₀, hworker, -⟩ := hown.recorded
  obtain rfl := Option.some.inj (hr.symm.trans hr₀)
  refine ⟨w, f, d, hat, rfl, hown.listed, hs.shown w f d hat, hworker,
    fun id' hid' r' hr' hactive' => ?_⟩
  obtain ⟨w', f', d', hat', rfl⟩ := hs.active id' r' hr' hactive'
  obtain ⟨n, hn⟩ := hs.lists w _ hid'
  obtain ⟨m, hm⟩ := (hs.dispatches.own w' f' d' hat').id
  obtain rfl := (makeAttemptId_inj (hm.symm.trans hn)).1
  rcases hat with hat | ⟨_, _, hat⟩ <;> rcases hat' with hat' | ⟨_, _, hat'⟩ <;>
    cases hat.symm.trans hat' <;> rfl

theorem active_attempt_dispatched_first : ∃ s : State,
    runSteps (sampleConfig 1) {} (dispatchSample ["a"] "w") = some s ∧
      ∃ w f d, AtAttempt s w f d ∧ d.attemptId = "w#1" := by
  have hrun : (runSteps (sampleConfig 1) {} (dispatchSample ["a"] "w")).map
      (fun s => (s.attempts.getAttempt "w#1").any (·.status.isActive)) = some true := by
    decide +kernel
  obtain ⟨s, hs, hany⟩ := Option.map_eq_some_iff.1 hrun
  obtain ⟨r, hr, hactive⟩ := (Option.any_eq_true _ _).1 hany
  obtain ⟨w, f, d, hat, hid, -⟩ := active_attempt_dispatched hs hr hactive
  exact ⟨s, hs, w, f, d, hat, hid⟩

end Aidars.Orchestrator
