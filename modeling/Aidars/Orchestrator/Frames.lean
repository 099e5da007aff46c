import Aidars.Attempt.Ledger
import Aidars.Orchestrator.Step

/-!
# What the segments of a run leave alone

`OwnFrame w s s'` states that a segment of the run of `w` leaves the other runs, the outcomes of the
other workloads, the cancellations and the drains alone, and that the run leaves `processing` only
together with `runs`. Operations that keep the run (`Quiet`) compose, and a segment is a list of
them that may end with a return, so `OwnFrame` holds of every segment of `_process_workload`
(`startRun_frame`, `place_frame`, `resume_frame`, `drainResume_frame`, `advanceCall_frame`,
`finishRun_frame`).
-/

namespace Aidars.Orchestrator

variable {cfg : Config} {s s' s₁ s₂ : State} {w v : String} {f : Frame} {d : Dispatch}

/-- A segment of the run of `w` leaves everything else alone. -/
structure OwnFrame (w : String) (s s' : State) : Prop where
  runs : ∀ v ≠ w, s'.runs.get? v = s.runs.get? v
  outcome : ∀ v ≠ w, s'.outcomeOf v = s.outcomeOf v
  processing : ∀ v ≠ w, v ∈ s'.processing ↔ v ∈ s.processing
  cancels : s'.cancels = s.cancels
  drains : s'.drains = s.drains
  own : s'.runs.get? w = none ∨ (w ∈ s'.processing ↔ w ∈ s.processing)

/-- An operation of the run of `w` after which the run goes on. -/
structure Quiet (w : String) (s s' : State) : Prop extends OwnFrame w s s' where
  going : w ∈ s'.processing ↔ w ∈ s.processing

namespace Quiet

theorem trans (h₁ : Quiet w s s₁) (h₂ : OwnFrame w s₁ s₂) : OwnFrame w s s₂ where
  runs v hv := (h₂.runs v hv).trans (h₁.runs v hv)
  outcome v hv := (h₂.outcome v hv).trans (h₁.outcome v hv)
  processing v hv := (h₂.processing v hv).trans (h₁.processing v hv)
  cancels := h₂.cancels.trans h₁.cancels
  drains := h₂.drains.trans h₁.drains
  own := h₂.own.imp_right fun h => h.trans h₁.going

theorem comp (h₁ : Quiet w s s₁) (h₂ : Quiet w s₁ s₂) : Quiet w s s₂ :=
  ⟨h₁.trans h₂.toOwnFrame, h₂.going.trans h₁.going⟩

/-- A change of other components of the state. -/
theorem of_rfl (hr : s'.runs = s.runs) (hw : s'.workloads = s.workloads)
    (hp : s'.processing = s.processing) (hc : s'.cancels = s.cancels) (hd : s'.drains = s.drains) :
    Quiet w s s' where
  runs v _ := by rw [hr]
  outcome v _ := by rw [State.outcomeOf, State.outcomeOf, hw]
  processing v _ := by rw [hp]
  cancels := hc
  drains := hd
  own := .inr (by rw [hp])
  going := by rw [hp]

theorem refl (w : String) (s : State) : Quiet w s s := of_rfl rfl rfl rfl rfl rfl

theorem modifyWorkload (s : State) (w : String) (g : WorkloadRecord → WorkloadRecord) :
    Quiet w s (s.modifyWorkload w g) where
  runs _ _ := rfl
  outcome v hv := by
    simp only [State.outcomeOf, State.modifyWorkload, Dict.get?_modify, if_neg hv]
  processing _ _ := Iff.rfl
  cancels := rfl
  drains := rfl
  own := .inr Iff.rfl
  going := Iff.rfl

theorem updateState (s : State) (w : String) (st : WorkloadState) (m : Option String) :
    Quiet w s (s.updateState w st m) := modifyWorkload s w _

theorem setPlacement (s : State) (w : String) (p : Option PlacementDecision) :
    Quiet w s (s.setPlacement w p) := modifyWorkload s w _

theorem setResult (s : State) (w : String) (r : WorkloadExecutionResult) :
    Quiet w s (s.setResult w r) := modifyWorkload s w _

/-- A new specification changes no outcome, whichever workload it is of. -/
theorem updateSpec (s : State) (w : String) (spec : WorkloadSpec) :
    Quiet w s (s.updateSpec spec) where
  runs _ _ := rfl
  outcome v _ := by
    simp only [State.outcomeOf, State.updateSpec, State.modifyWorkload, Dict.get?_modify]
    split_ifs with hv
    · rw [hv, Option.map_map]
      rfl
    · rfl
  processing _ _ := Iff.rfl
  cancels := rfl
  drains := rfl
  own := .inr Iff.rfl
  going := Iff.rfl

theorem setPc (s : State) (w : String) (pc : Pc) : Quiet w s (s.setPc w pc) where
  runs v hv := by simp only [State.setPc, Dict.get?_set, if_neg hv]
  outcome _ _ := rfl
  processing _ _ := Iff.rfl
  cancels := rfl
  drains := rfl
  own := .inr Iff.rfl
  going := Iff.rfl

theorem enqueueWorkload (s : State) (w : String) : Quiet w s (s.enqueueWorkload w) := by
  unfold State.enqueueWorkload
  split_ifs
  · exact refl w s
  · split
    all_goals exact of_rfl rfl rfl rfl rfl rfl

theorem promoteSpare (s : State) (w : String) (f : Frame) :
    Quiet w s (s.promoteSpare f).1 := by
  unfold State.promoteSpare
  split
  · split
    · split_ifs
      · exact refl w s
      · exact of_rfl rfl rfl rfl rfl rfl
    · exact refl w s
  · exact refl w s

theorem nextAttempt (s : State) (w : String) (f : Frame) : Quiet w s (s.nextAttempt w f) :=
  setPc s w _

theorem dependencyState (s : State) (w : String) (deps : List String) :
    Quiet w s (s.dependencyState w deps).1 := by
  induction deps with
  | nil => exact refl w s
  | cons dep deps ih =>
    unfold State.dependencyState
    split
    · exact refl w s
    · split_ifs
      · exact updateState s w _ _
      · exact refl w s
      · exact ih

end Quiet

open Quiet

theorem returnRun_frame (s : State) (w : String) : OwnFrame w s (s.returnRun w) := by
  unfold State.returnRun
  split_ifs
  · exact ⟨fun v hv => by simp only [Dict.get?_set, if_neg hv], fun _ _ => rfl,
      fun _ _ => Iff.rfl, rfl, rfl, .inr Iff.rfl⟩
  · exact ⟨fun v hv => by simp only [Dict.get?_erase, if_neg hv], fun _ _ => rfl,
      fun v hv => by simp [hv], rfl, rfl, .inl (by simp)⟩

theorem failRun_frame (s : State) (w : String) (m : Option String) :
    OwnFrame w s (s.failRun w m) := (updateState s w _ m).trans (returnRun_frame _ w)

theorem retryOrFail_frame (s : State) (w : String) (f : Frame) (c : Option FailureCategory)
    (m : String) : OwnFrame w s (s.retryOrFail cfg w f c m) := by
  unfold State.retryOrFail
  split_ifs
  · exact (nextAttempt s w f).toOwnFrame
  · exact failRun_frame s w _

/-! ## The segments before the dispatch -/

theorem enterLoop_frame (s : State) (w : String) (f : Frame) :
    OwnFrame w s (s.enterLoop cfg w f) := by
  have hplacing : Quiet w s ((s.updateState w .validating).updateState w .placing) :=
    (updateState s w _ none).comp (updateState _ w _ none)
  unfold State.enterLoop
  dsimp only
  split_ifs
  · exact hplacing.trans (failRun_frame _ w _)
  · exact (hplacing.comp (promoteSpare _ w f)).trans (failRun_frame _ w _)
  · exact (hplacing.comp ((promoteSpare _ w f).comp (nextAttempt _ w _))).toOwnFrame

theorem startRun_frame (h : s.startRun cfg w = some s') : OwnFrame w s s' := by
  unfold State.startRun at h
  split at h
  · split at h
    · obtain rfl := Option.some.inj h
      exact returnRun_frame s w
    · rename_i record _
      have hdep := dependencyState s w record.spec.dependsOn
      split_ifs at h
      · obtain rfl := Option.some.inj h
        exact returnRun_frame s w
      · split at h
        · rename_i s₁ hs
          rw [hs] at hdep
          split at h
          · obtain rfl := Option.some.inj h
            exact hdep.trans (enterLoop_frame _ w _)
          · obtain rfl := Option.some.inj h
            exact hdep.trans (returnRun_frame _ w)
        · rename_i s₁ _ _ hs
          rw [hs] at hdep
          obtain rfl := Option.some.inj h
          exact hdep.trans (returnRun_frame _ w)
  · cases h

theorem noDecision_frame (s : State) (w : String) (f : Frame) :
    OwnFrame w s (s.noDecision w f) := by
  have hp := setPlacement s w none
  unfold State.noDecision
  dsimp only
  split_ifs
  · exact hp.trans ((updateState _ w _ _).trans (returnRun_frame _ w))
  · exact hp.trans (failRun_frame _ w _)
  · exact hp.trans (failRun_frame _ w _)
  · exact hp.trans ((updateState _ w _ _).trans (returnRun_frame _ w))

theorem recordAttempt_frame (s : State) (w : String) (p : PlacementDecision)
    (g : Option ExecutionGroup) : Quiet w s (s.recordAttempt w p g) :=
  ((setPlacement s w _).comp (updateState _ w _ none)).comp (of_rfl rfl rfl rfl rfl rfl)

theorem launch_frame (s : State) (w : String) (f : Frame) (id : String) (p : PlacementDecision)
    (g : Option ExecutionGroup) (workers : List WorkerInfo) :
    OwnFrame w s (s.launch cfg w f id p g workers) := by
  unfold State.launch
  dsimp only
  split_ifs
  · refine Quiet.trans ?_ (retryOrFail_frame _ w _ _ _)
    exact of_rfl rfl rfl rfl rfl rfl
  · refine (Quiet.comp ?_ (setPc _ w _)).toOwnFrame
    refine Quiet.comp ?_ (updateState _ w _ none)
    exact of_rfl rfl rfl rfl rfl rfl

theorem place_frame {ranking : Ranking} {now : ℚ} {execId : String}
    (h : s.place cfg w ranking now execId = some s') : OwnFrame w s s' := by
  unfold State.place at h
  split at h
  · rename_i f _
    dsimp only at h
    have hp := promoteSpare s w f
    split_ifs at h
    · obtain rfl := Option.some.inj h
      exact hp.trans (returnRun_frame _ w)
    · split at h
      · obtain rfl := Option.some.inj h
        exact hp.trans (noDecision_frame _ w _)
      · obtain rfl := Option.some.inj h
        exact hp.trans (noDecision_frame _ w _)
      · obtain rfl := Option.some.inj h
        exact (hp.comp (recordAttempt_frame _ w _ _)).trans (launch_frame _ w _ _ _ _ _)
  · cases h

/-! ## The dispatch and its answer -/

theorem advanceCall_frame {i : ℕ} {event : State.CallEvent}
    (h : s.advanceCall w i event = some s') : OwnFrame w s s' := by
  unfold State.advanceCall at h
  split at h
  · split at h
    · obtain ⟨phase, -, rfl⟩ := Option.map_eq_some_iff.1 h
      exact (setPc s w _).toOwnFrame
    · cases h
  · cases h

theorem recordFailures_frame (s : State) (w : String) (ids : List String) (now : ℚ) :
    Quiet w s (s.recordFailures cfg ids now)  := of_rfl rfl rfl rfl rfl rfl

theorem recordArtifacts_frame (s : State) (w : String) (r : WorkloadExecutionResult) :
    Quiet w s (s.recordArtifacts r) := by
  unfold State.recordArtifacts
  split_ifs
  · exact of_rfl rfl rfl rfl rfl rfl
  · exact refl w s

theorem cancelledResult_frame (s : State) (w : String) (d : Dispatch)
    (r : WorkloadExecutionResult) : OwnFrame w s (s.cancelledResult w d r) := by
  unfold State.cancelledResult
  refine Quiet.trans ?_ ((updateState _ w _ _).trans (returnRun_frame _ w))
  exact of_rfl rfl rfl rfl rfl rfl

theorem checkpointResult_frame (s : State) (w : String) (f : Frame) (d : Dispatch)
    (r : WorkloadExecutionResult) : OwnFrame w s (s.checkpointResult w f d r) := by
  have hsucceeded : Quiet w s { s.updateState w .migrating with
      attempts := (s.updateState w .migrating).attempts.markSucceeded d.attemptId r } :=
    (updateState s w _ none).comp (of_rfl rfl rfl rfl rfl rfl)
  unfold State.checkpointResult
  dsimp only
  refine Quiet.trans ?_ ((enqueueWorkload _ w).trans (returnRun_frame _ w))
  refine Quiet.comp ?_ ((setPlacement _ w _).comp (updateState _ w _ none))
  split
  · exact hsucceeded.comp (updateSpec _ w _)
  · exact hsucceeded

theorem successResult_frame (s : State) (w : String) (f : Frame) (d : Dispatch)
    (r : WorkloadExecutionResult) : OwnFrame w s (s.successResult w f d r) := by
  have hstored : Quiet w s (((s.setResult w r).updateState w .completed).recordArtifacts r) :=
    ((setResult s w r).comp (updateState _ w _ none)).comp (recordArtifacts_frame _ w r)
  unfold State.successResult
  refine Quiet.trans ?_ (returnRun_frame _ w)
  exact hstored.comp (of_rfl rfl rfl rfl rfl rfl)

theorem settleFailure_frame (s : State) (w : String) (d : Dispatch) (r : WorkloadExecutionResult)
    (u : PySet String) (b : Bool) : Quiet w s (s.settleFailure d r u b) := by
  unfold State.settleFailure
  split_ifs <;> exact of_rfl rfl rfl rfl rfl rfl

theorem failureResult_frame (s : State) (w : String) (f : Frame) (d : Dispatch)
    (r : WorkloadExecutionResult) (u : PySet String) (b : Bool) (now : ℚ) :
    OwnFrame w s (s.failureResult cfg w f d r u b now) := by
  have hs := settleFailure_frame s w d r u b
  have hrecorded : ∀ s₁ : State, ∀ ids, Quiet w s s₁ → Quiet w s (s₁.recordFailures cfg ids now) :=
    fun s₁ ids h => h.comp (recordFailures_frame s₁ w ids now)
  have hfailed : ∀ s₁ : State, ∀ m, Quiet w s s₁ → OwnFrame w s ((s₁.setResult w r).failRun w m) :=
    fun s₁ m h => (h.comp (setResult s₁ w r)).trans (failRun_frame _ w m)
  unfold State.failureResult
  dsimp only
  split_ifs
  · exact ((hrecorded _ _ hs).comp (nextAttempt _ w _)).toOwnFrame
  · exact hfailed _ _ (hrecorded _ _ hs)
  · exact (hs.comp (nextAttempt _ w _)).toOwnFrame
  · exact hfailed _ _ hs
  · exact (hs.comp (nextAttempt _ w _)).toOwnFrame
  · exact hfailed _ _ hs

theorem settleResult_frame (s : State) (w : String) (f : Frame) (d : Dispatch)
    (r : WorkloadExecutionResult) (u : PySet String) (b : Bool) (now : ℚ) :
    OwnFrame w s (s.settleResult cfg w f d r u b now) := by
  unfold State.settleResult
  split_ifs
  · exact checkpointResult_frame s w f d r
  · exact successResult_frame s w f d r
  · exact failureResult_frame s w f d r u b now

theorem lostGroupResult_frame (s : State) (w : String) (f : Frame) (d : Dispatch)
    (r : WorkloadExecutionResult) (t : PySet String) (now : ℚ) :
    OwnFrame w s (s.lostGroupResult cfg w f d r t now) := settleResult_frame s w f d _ _ _ now

theorem handleResult_frame (s : State) (w : String) (f : Frame) (d : Dispatch)
    (r : WorkloadExecutionResult) (u t : PySet String) (now : ℚ) :
    OwnFrame w s (s.handleResult cfg w f d r u t now) := by
  unfold State.handleResult
  dsimp only
  split_ifs
  · exact cancelledResult_frame s w d _
  · split
    · exact (setPc s w _).toOwnFrame
    · exact lostGroupResult_frame s w f d _ t now
  · exact settleResult_frame s w f d _ u _ now

theorem settleException_frame (s : State) (w : String) (d : Dispatch) (m : String) :
    Quiet w s (s.settleException d m) := by
  unfold State.settleException
  split_ifs <;> exact of_rfl rfl rfl rfl rfl rfl

theorem handleOtherException_frame (s : State) (w : String) (f : Frame) (d : Dispatch) (m : String)
    (now : ℚ) : OwnFrame w s (s.handleOtherException cfg w f d m now) := by
  have hs : Quiet w s ((s.recordFailures cfg d.workerIds now).settleException d m) :=
    (recordFailures_frame s w d.workerIds now).comp (settleException_frame _ w d m)
  unfold State.handleOtherException
  dsimp only
  split_ifs
  · exact (hs.comp (nextAttempt _ w _)).toOwnFrame
  · exact (hs.comp ((updateState _ w _ _).comp (nextAttempt _ w _))).toOwnFrame

theorem handleReply_frame (s : State) (w : String) (f : Frame) (d : Dispatch) (now : ℚ)
    (reply : Reply) : OwnFrame w s (s.handleReply cfg w f d now reply) := by
  cases reply with
  | result r u t => exact handleResult_frame s w f d r u t now
  | recordLost m =>
    refine Quiet.trans ?_ (retryOrFail_frame _ w _ _ _)
    exact of_rfl rfl rfl rfl rfl rfl
  | submitUnavailable m =>
    refine Quiet.trans ?_ (retryOrFail_frame _ w _ _ _)
    exact of_rfl rfl rfl rfl rfl rfl
  | otherException m => exact handleOtherException_frame s w f d m now

theorem resume_frame {now : ℚ} (h : s.resume cfg w now = some s') : OwnFrame w s s' := by
  unfold State.resume at h
  split at h
  · obtain ⟨reply, -, rfl⟩ := Option.map_eq_some_iff.1 h
    exact handleReply_frame s w _ _ now reply
  · cases h

theorem drainResume_frame {now : ℚ} (h : s.drainResume cfg w now = some s') : OwnFrame w s s' := by
  unfold State.drainResume at h
  split at h
  · split_ifs at h
    obtain rfl := Option.some.inj h
    refine Quiet.trans ?_ (lostGroupResult_frame _ w _ _ _ _ now)
    exact of_rfl rfl rfl rfl rfl rfl
  · cases h

theorem finishRun_frame (h : s.finishRun w = some s') : OwnFrame w s s' := by
  unfold State.finishRun at h
  split at h
  · obtain rfl := Option.some.inj h
    exact ⟨fun v hv => by simp only [Dict.get?_erase, if_neg hv], fun _ _ => rfl,
      fun v hv => by simp [hv], rfl, rfl, .inl (by simp)⟩
  · cases h

end Aidars.Orchestrator
