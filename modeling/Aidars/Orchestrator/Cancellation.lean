import Aidars.Orchestrator.Transitions

/-!
# Cancellation

A cancelled workload stays cancelled, and gets no attempt, as long as its run does not take one of
the segments that write its state without looking at it (`OutsideWindows`): the segment from the
placement lock, an exception or a drained group that finds the retry budget spent, and a restart
that reads the record while the cancellation is only requested. `cancelled_step` is the step lemma,
`cancellation_final` the result about whole runs.
-/

namespace Aidars.Orchestrator

open AttemptRegistry (Moves)

variable {cfg : Config} {s s' : State} {w v : String} {f : Frame} {d : Dispatch} {a : Action}

/-- The answer is an exception. -/
def Reply.isException : Reply → Bool
  | .result _ _ _ => false
  | _ => true

/-- The step is none of those that write the state of a cancelled workload `w`. -/
def OutsideWindows (cfg : Config) (w : String) (s : State) : Action → Prop
  | .place v _ _ _ => v ≠ w
  | .resume v _ => v = w → ∀ f ∈ s.frameOf w, ∀ reply ∈ s.replyOf cfg w,
      reply.isException = true → f.attemptsUsed < cfg.maxAttempts
  | .drainResume v _ => v = w → ∀ f ∈ s.frameOf w, f.attemptsUsed < cfg.maxAttempts
  | .restart _ => s.stateOf w = some .cancelled ∧
      ((s.workloads.get? w).bind (StateStore.reloadWorkload cfg.floatRepr)).isSome = true
  | _ => True

instance (w : String) (s : State) (a : Action) : Decidable (OutsideWindows cfg w s a) := by
  apply a.casesOn (motive := fun a => Decidable (OutsideWindows cfg w s a)) <;> intros <;>
    unfold OutsideWindows <;> infer_instance

/-! ## Answers that can be saved -/

/-- The integers of the answer that are saved fit their columns: the format version of a checkpoint,
and the sizes of the outputs of a success. -/
def Reply.fitsColumns (d : Dispatch) : Reply → Bool
  | .result r _ _ =>
    let r := State.rejectGroupCheckpoint d r
    if r.wasCheckpointed then
      !r.checkpointHash.any (· ≠ "") || r.checkpointFormatVersion.all StateStore.fitsInt64
    else
      !r.success || decide (∀ hash ∈ r.outputAssetHashes,
        (r.outputAssetSizes.get? hash).all StateStore.fitsInt64)
  | _ => true

/-- The step handles no answer that cannot be saved: saving it would raise in the middle of the
handling. A result that comes after a cancellation, or for a group that was lost, is not saved. -/
def AnswersFit (cfg : Config) (s : State) : Action → Prop
  | .resume w _ => s.isCancelled w = false → ∀ d ∈ s.dispatchOf w, ∀ reply ∈ s.replyOf cfg w,
      (d.executionGroup.isSome && s.isLost d.attemptId) = false → reply.fitsColumns d = true
  | _ => True

instance (s : State) (a : Action) : Decidable (AnswersFit cfg s a) := by
  apply a.casesOn (motive := fun a => Decidable (AnswersFit cfg s a)) <;> intros <;>
    unfold AnswersFit <;> infer_instance

/-! ## Retries leave the outcome alone -/

theorem shouldRetry_unavailable {n m : ℕ} (h : n < m) :
    shouldRetry (some .workerUnavailable) n m = true := by
  simp [shouldRetry, RETRYABLE_FAILURE_CATEGORIES, h]

theorem retryOrFail_of_lt (s : State) (w m : String) (h : f.attemptsUsed < cfg.maxAttempts) :
    s.retryOrFail cfg w f (some .workerUnavailable) m = s.nextAttempt w f :=
  if_pos (shouldRetry_unavailable h)

/-- An exception within the retry budget leaves the outcomes alone. -/
theorem outcomeOf_handleReply_exception {reply : Reply} {now : ℚ} (hr : reply.isException = true)
    (hlt : f.attemptsUsed < cfg.maxAttempts) :
    (s.handleReply cfg w f d now reply).outcomeOf v = s.outcomeOf v := by
  have hlt' : (f.exhaust d.workerIds).attemptsUsed < cfg.maxAttempts := hlt
  cases reply with
  | result r u t => cases hr
  | recordLost m =>
    unfold State.handleReply State.handleRecordLost
    dsimp only
    rw [retryOrFail_of_lt _ w m hlt']
    rfl
  | submitUnavailable m =>
    unfold State.handleReply State.handleSubmitUnavailable
    dsimp only
    rw [retryOrFail_of_lt _ w m hlt']
    rfl
  | otherException m =>
    unfold State.handleReply State.handleOtherException State.settleException
    dsimp only
    rw [if_pos (shouldRetry_unavailable hlt')]
    split_ifs <;> rfl

theorem outcomeOf_lostGroupResult {r : WorkloadExecutionResult} {t : PySet String} {now : ℚ}
    (hr : r.wasCheckpointed = false) (hlt : f.attemptsUsed < cfg.maxAttempts) :
    (s.lostGroupResult cfg w f d r t now).outcomeOf v = s.outcomeOf v := by
  have hretry := shouldRetry_unavailable hlt
  have hplain : ¬ r.wasCheckpointed = true := by simp [hr]
  unfold State.lostGroupResult State.settleResult
  dsimp only
  rw [if_neg hplain, if_neg (by decide)]
  unfold State.failureResult State.settleFailure
  dsimp only
  split_ifs with h₁ h₂ h₃
  all_goals first
    | rfl
    | exact absurd hretry (by assumption)

/-! ## One step -/

/-- The outcome of a cancelled workload is as before, or the cancellation is done. -/
def StaysCancelled (w : String) (s s' : State) : Prop :=
  s'.outcomeOf w = s.outcomeOf w ∨ s'.outcomeOf w = (s.outcomeOf w).map fun o => (.cancelled, o.2)

theorem isCancelled_iff : s.isCancelled w = true ↔
    s.stateOf w = some .cancellationRequested ∨ s.stateOf w = some .cancelled := by
  unfold State.isCancelled WorkloadState.isCancelled
  cases s.stateOf w <;> simp

theorem isCancelled_congr (h : s'.outcomeOf w = s.outcomeOf w) :
    s'.isCancelled w = s.isCancelled w := by
  rw [State.isCancelled, State.isCancelled, stateOf_eq, stateOf_eq, h]

namespace StaysCancelled

theorem of_workloads (h : s'.workloads = s.workloads) : StaysCancelled w s s' :=
  .inl (by rw [State.outcomeOf, State.outcomeOf, h])

theorem isCancelled (h : StaysCancelled w s s') (hs : s.isCancelled w = true) :
    s'.isCancelled w = true := by
  rcases h with h | h
  · rw [isCancelled_congr h]
    exact hs
  · rw [State.isCancelled, stateOf_eq] at hs ⊢
    rw [h]
    cases ho : s.outcomeOf w with
    | none => simp [ho] at hs
    | some o => rfl

/-- A workload that is cancelled keeps its outcome. -/
theorem outcomeOf_eq (h : StaysCancelled w s s') (hs : s.stateOf w = some .cancelled) :
    s'.outcomeOf w = s.outcomeOf w := by
  rcases h with h | h
  · exact h
  · rw [h]
    rw [stateOf_eq] at hs
    obtain ⟨⟨st, r⟩, ho, rfl⟩ := Option.map_eq_some_iff.1 hs
    rw [ho]
    rfl

end StaysCancelled

theorem resume_cancelled {now : ℚ} (hc : s.isCancelled w = true)
    (hg : OutsideWindows cfg w s (.resume w now)) (h : s.resume cfg w now = some s') :
    StaysCancelled w s s' := by
  obtain ⟨f, d, reply, hpc, hreply, rfl, -⟩ := resume_cases h
  have hframe : s.frameOf w = some f := by simp [State.frameOf, hpc]
  have hanswer : s.replyOf cfg w = some reply := by simp [State.replyOf, hpc, hreply]
  cases hr : reply.isException with
  | true => exact .inl (outcomeOf_handleReply_exception hr (hg rfl f hframe reply hanswer hr))
  | false =>
    cases reply with
    | result r u t =>
      refine .inr ?_
      unfold State.handleReply State.handleResult
      dsimp only
      rw [if_pos hc]
      unfold State.cancelledResult
      rw [State.outcomeOf, workloads_returnRun, ← State.outcomeOf, outcomeOf_updateState,
        if_pos rfl]
      rfl
    | _ => cases hr

theorem drainResume_cancelled {now : ℚ} (hs : DrainsPlain s)
    (hg : OutsideWindows cfg w s (.drainResume w now)) (h : s.drainResume cfg w now = some s') :
    StaysCancelled w s s' := by
  unfold State.drainResume at h
  split at h
  · rename_i f d r t hpc
    split_ifs at h
    obtain rfl := Option.some.inj h
    have hframe : s.frameOf w = some f := by simp [State.frameOf, hpc]
    exact .inl (outcomeOf_lostGroupResult (hs w f d r t hpc) (hg rfl f hframe))
  · cases h

theorem staysCancelled_step (hs : DrainsPlain s) (hc : s.isCancelled w = true)
    (hg : OutsideWindows cfg w s a) (hrestart : a.isRestart = false)
    (h : step cfg s a = some s') : StaysCancelled w s s' := by
  by_cases hseg : a.segmentOf = some w
  · cases segment_of_eq hseg with
    | startRun =>
      exact .of_workloads ((startRun_cases h).2.2.2.1 hc)
    | place ranking now execId =>
      exact absurd rfl hg
    | callEvent i event =>
      obtain ⟨f', d', c, phase, -, rfl⟩ := advanceCall_cases h
      exact .of_workloads rfl
    | resume now =>
      exact resume_cancelled hc hg h
    | drainResume now =>
      exact drainResume_cancelled hs hg h
    | finishRun =>
      exact .of_workloads (finishRun_cases h).2.2.1
  · have hstate := isCancelled_iff.1 hc
    cases step_foreign h hseg hrestart with
    | kept hrun hout => exact .inl hout
    | submitted hrun hnew hout =>
      rw [stateOf_eq, hnew] at hstate
      rcases hstate with hstate | hstate <;> cases hstate
    | admitted hp hproc hpc hout => exact .inl hout
    | blocked hp hrun hout =>
      rw [hp.1] at hstate
      rcases hstate with hstate | hstate <;> cases hstate
    | cancelled st hst hrun hfrom hout =>
      cases hdone : decide (st = .cancelled) with
      | true => exact .inr (by rw [hout, of_decide_eq_true hdone])
      | false =>
        -- requested once more, while it is not done
        have hne : st ≠ .cancelled := of_decide_eq_false hdone
        have hreq : st = .cancellationRequested := by
          cases st <;> first | rfl | exact absurd rfl hne | cases hst
        obtain ⟨x, hx, hxt⟩ := hfrom.resolve_right fun hf => hne hf.1
        refine .inl ?_
        rw [hout, hreq]
        have hreq' : s.stateOf w = some .cancellationRequested := by
          refine hstate.resolve_right fun hdone => ?_
          rw [hx] at hdone
          obtain rfl := Option.some.inj hdone
          cases hxt
        rw [stateOf_eq] at hreq'
        obtain ⟨⟨st', r⟩, ho, rfl⟩ := Option.map_eq_some_iff.1 hreq'
        rw [ho]
        rfl

theorem idsOf_step (hs : DrainsPlain s) (hg : OutsideWindows cfg w s a)
    (h : step cfg s a = some s') :
    (s'.attempts.idsOf w).Sublist (s.attempts.idsOf w) := by
  by_cases hplace : ∃ v ranking now execId, a = .place v ranking now execId
  · obtain ⟨v, ranking, now, execId, rfl⟩ := hplace
    have hne : w ≠ v := fun he => hg he.symm
    rw [idsOf_place_of_ne hne h]
  · cases hrestart : a.isRestart with
    | true =>
      obtain ⟨now, rfl, rfl⟩ := restart_of_step hrestart h
      show ((State.restoreAttempts s.attempts).idsOf w).Sublist _
      rw [idsOf_restoreAttempts]
      exact List.filter_sublist
    | false => rw [idsOf_of_not_place hs hrestart (fun v r n e he => hplace ⟨v, r, n, e, he⟩) h]

theorem isCancelled_restart {now : ℚ} (hg : OutsideWindows cfg w s (.restart now)) :
    (s.restart cfg now).isCancelled w = true := by
  obtain ⟨hstate, hread⟩ := hg
  obtain ⟨r, hr, hst⟩ := Option.map_eq_some_iff.1 hstate
  rw [hr, Option.bind_some] at hread
  obtain ⟨r', hr'⟩ := Option.isSome_iff_exists.1 hread
  have hst' : r'.state = .cancelled := (StateStore.reloadWorkload_state hr').trans hst
  have hredrive : State.redrive r' = r' := by
    unfold State.redrive
    rw [hst']
    rfl
  have hget : (s.restart cfg now).workloads.get? w = some r' := by
    unfold State.restart
    dsimp only
    rw [Dict.get?_filterMapValues, hr, Option.bind_some, hr', Option.map_some, hredrive]
  rw [isCancelled_iff, State.stateOf, hget, Option.map_some, hst']
  exact .inr rfl

/-- **One step outside the windows**: a cancelled workload stays cancelled and gets no attempt. -/
theorem cancelled_step (hs : DrainsPlain s) (hc : s.isCancelled w = true)
    (hg : OutsideWindows cfg w s a) (h : step cfg s a = some s') :
    s'.isCancelled w = true ∧ (s'.attempts.idsOf w).Sublist (s.attempts.idsOf w) := by
  refine ⟨?_, idsOf_step hs hg h⟩
  cases hrestart : a.isRestart with
  | true =>
    obtain ⟨now, rfl, rfl⟩ := restart_of_step hrestart h
    exact isCancelled_restart hg
  | false => exact (staysCancelled_step hs hc hg hrestart h).isCancelled hc

/-! ## Whole runs -/

/-- The step leaves the workload cancelled and creates no attempt of it. -/
def KeepsCancelled (cfg : Config) (w : String) (s : State) (a : Action) : Prop :=
  ∀ s', step cfg s a = some s' →
    (s'.stateOf w = some .cancellationRequested ∨ s'.stateOf w = some .cancelled) ∧
      (s'.attempts.idsOf w).Sublist (s.attempts.idsOf w)

theorem isCancelled_cancelStart {x : WorkloadState} (hx : s.stateOf w = some x)
    (hlive : x.isTerminal = false) : (s.cancelStart w).isCancelled w = true := by
  unfold State.cancelStart
  rw [hx]
  dsimp only
  rw [if_neg (by simp [hlive])]
  rw [stateOf_eq] at hx
  obtain ⟨o, ho, -⟩ := Option.map_eq_some_iff.1 hx
  split_ifs
  · have hout : ∀ s₀ : State, ∀ l, { s₀ with cancels := l }.isCancelled w = s₀.isCancelled w :=
      fun _ _ => rfl
    rw [hout, State.isCancelled, stateOf_eq, outcomeOf_updateState, if_pos rfl, ho]
    rfl
  · rw [State.isCancelled, stateOf_eq, outcomeOf_finishCancel, if_pos rfl, outcomeOf_updateState,
      if_pos rfl, ho]
    rfl

/-- The workload is cancelled, in a state that the coordinator can reach. -/
def CancelInv (w : String) (s : State) : Prop := DrainsPlain s ∧ s.isCancelled w = true

/-- **Cancellation is final outside the windows.** Once `cancel_workload` has requested the
cancellation of a workload that is not terminal, in any state that the coordinator reaches, every
further step leaves the workload in one of the two states of cancellation and creates no attempt of
it, as long as the steps stay outside the windows. -/
theorem cancellation_final {as bs : List Action} {s₁ : State} {x : WorkloadState}
    (has : runSteps cfg {} as = some s) (hx : s.stateOf w = some x) (hlive : x.isTerminal = false)
    (hcancel : step cfg s (.cancelStart w) = some s₁)
    (hbs : Along (step cfg) (OutsideWindows cfg w) s₁ bs) :
    (s₁.stateOf w = some .cancellationRequested ∨ s₁.stateOf w = some .cancelled) ∧
      s₁.attempts.idsOf w = s.attempts.idsOf w ∧
      Along (step cfg) (KeepsCancelled cfg w) s₁ bs := by
  have hplain : DrainsPlain s₁ := step_drainsPlain (drainsPlain_run has) hcancel
  have hids : s₁.attempts.idsOf w = s.attempts.idsOf w :=
    (step_attempts hcancel rfl rfl).idsOf w
  have hcancelled : s₁.isCancelled w = true := by
    obtain rfl := Option.some.inj hcancel
    exact isCancelled_cancelStart hx hlive
  have hinv : CancelInv w s₁ := ⟨hplain, hcancelled⟩
  refine ⟨isCancelled_iff.1 hcancelled, hids, hbs.imp ?_ ?_ hinv⟩
  · rintro s a s' ⟨hp, hc⟩ hg h
    exact ⟨step_drainsPlain hp h, (cancelled_step hp hc hg h).1⟩
  · rintro s a s' ⟨hp, hc⟩ hg h s₂ h₂
    obtain ⟨hc', hsub⟩ := cancelled_step hp hc hg h₂
    exact ⟨isCancelled_iff.1 hc', hsub⟩

/-! ## Sample runs -/

/-- A configuration. -/
def sampleConfig (maxAttempts : ℕ) : Config where
  registry := { decayFactor := fun _ => 1, round4 := id }
  text := { lower := id, casefold := id, parseInt := fun _ => none }
  floatRepr := fun _ => "0.0"
  endpointError := fun _ => none
  maxAttempts
  maxDispatchTasks := 4

/-- A worker with fresh telemetry at time zero. -/
def sampleWorker (x : String) : WorkerInfo where
  workerId := x
  endpointUrl := "http://" ++ x ++ ":8000"
  ipAddress := "10.0.0.1"
  port := 8000
  lastHeartbeatUtc := 0
  resourceProfile := some
    { workerId := x, endpointUrl := "http://" ++ x ++ ":8000", ipAddress := "10.0.0.1"
      cpuCoresTotal := 8, cpuUtilizationPercent := 0, ramTotalBytes := 2 ^ 34
      ramAvailableBytes := 2 ^ 34, timestampUtc := some 0 }

/-- A workload. -/
def sampleSpec (w : String) : WorkloadSpec where
  workloadId := w
  taskType := "compute"

/-- A ranking that takes the first eligible worker. -/
def sampleRanking : Ranking where
  order := []
  details x :=
    { workloadId := "", selectedWorkerId := x, placementScore := 1, scoreBreakdown := ∅
      missingAssetsOnWorker := ∅, executionTier := "lan", decisionTimestampUtc := 0 }

/-- Register the workers, submit a workload and dispatch it. -/
def dispatchSample (workers : List String) (w : String) : List Action :=
  workers.map (fun x => .registryOp (.registerWorker (sampleWorker x) 0)) ++
    [.submitWorkload (sampleSpec w), .admissionPass [w], .startRun w,
      .place w sampleRanking 0 "group"]

/-- A cancellation that meets a workload at its first poll, and a restart after it. -/
theorem cancellation_final_polled :
    ∃ s s₁ : State, runSteps (sampleConfig 2) {} (dispatchSample ["a"] "w") = some s ∧
      step (sampleConfig 2) s (.cancelStart "w") = some s₁ ∧
      s₁.stateOf "w" = some .cancellationRequested ∧ s₁.attempts.idsOf "w" = ["w#1"] ∧
      Along (step (sampleConfig 2)) (KeepsCancelled (sampleConfig 2) "w") s₁
        [.callEvent "w" 0 .running, .callEvent "w" 0 .closed, .resume "w" 1, .cancelFinish "w",
          .restart 2] := by
  have hrun : (runSteps (sampleConfig 2) {} (dispatchSample ["a"] "w")).map (fun s =>
      (s.stateOf "w", (s.cancelStart "w").stateOf "w", (s.cancelStart "w").attempts.idsOf "w",
        decide (Along (step (sampleConfig 2)) (OutsideWindows (sampleConfig 2) "w")
          (s.cancelStart "w") [.callEvent "w" 0 .running, .callEvent "w" 0 .closed, .resume "w" 1,
            .cancelFinish "w", .restart 2]))) =
      some (some .executing, some .cancellationRequested, ["w#1"], true) := by decide +kernel
  obtain ⟨s, hs, hv⟩ := Option.map_eq_some_iff.1 hrun
  obtain ⟨hx, hv⟩ := Prod.mk.inj hv
  obtain ⟨hstate, hv⟩ := Prod.mk.inj hv
  obtain ⟨hids, hout⟩ := Prod.mk.inj hv
  obtain ⟨-, -, hkeeps⟩ := cancellation_final hs hx rfl rfl (of_decide_eq_true hout)
  exact ⟨s, s.cancelStart "w", hs, rfl, hstate, hids, hkeeps⟩

/-- A cancelled workload executes again: the cancellation is done while a submission is in flight,
the submission is refused, and the retry places the workload on the other worker. -/
theorem cancellation_overwritten :
    ¬ ∀ (cfg : Config) (as bs : List Action) (w : String) (x : WorkloadState) (s s₁ s' : State),
      runSteps cfg {} as = some s → s.stateOf w = some x → x.isTerminal = false →
      step cfg s (.cancelStart w) = some s₁ → runSteps cfg s₁ bs = some s' →
      (s'.stateOf w = some .cancellationRequested ∨ s'.stateOf w = some .cancelled) ∧
        s'.attempts.idsOf w = s.attempts.idsOf w := by
  intro hclaim
  have hrun : (runSteps (sampleConfig 2) {} (dispatchSample ["a", "b"] "w")).bind (fun s =>
      (runSteps (sampleConfig 2) (s.cancelStart "w")
        [.cancelFinish "w", .callEvent "w" 0 (.submitUnavailable "refused"), .resume "w" 1,
          .place "w" sampleRanking 1 "group"]).map fun s' =>
        (s.stateOf "w", s'.stateOf "w")) = some (some .executing, some .executing) := by
    decide +kernel
  obtain ⟨s, hs, hv⟩ := Option.bind_eq_some_iff.1 hrun
  obtain ⟨s', hs', hv⟩ := Option.map_eq_some_iff.1 hv
  obtain ⟨hx, hx'⟩ := Prod.mk.inj hv
  obtain ⟨hstate, -⟩ := hclaim _ _ _ _ _ s (s.cancelStart "w") s' hs hx rfl rfl hs'
  rw [hx'] at hstate
  rcases hstate with hstate | hstate <;> cases hstate

end Aidars.Orchestrator
