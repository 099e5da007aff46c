import Aidars.Orchestrator.Dispatches

/-!
# What a step does to the workers

The coroutines of the orchestrator share the worker registry with the endpoints and the loops of the
coordinator. A run changes it in two ways only (`Reported`): it records failures of workers, which
are workers of its dispatch, or it indexes the outputs of a result. `step_registryStep` lists what
any step does to the registry.
-/

namespace Aidars.Orchestrator

variable {cfg : Config} {s s' : State} {w x : String} {a : Action} {f : Frame} {d : Dispatch}
  {reply : Reply} {P Q : String → Prop} {r r' : WorkerRegistry}

/-! ## The answer of a dispatch -/

/-- The registry after a run has recorded failures of workers with `P`, or the outputs of a
result. -/
inductive Reported (cfg : Config) (P : String → Prop) (r : WorkerRegistry) : WorkerRegistry → Prop
  | same : Reported cfg P r r
  | failures (ids : List String) (now : ℚ) (hids : ∀ x ∈ ids, P x) : Reported cfg P r
      (ids.foldl (fun r wid => WorkerRegistry.recordFailure cfg.registry r wid 1 now) r)
  | outputs (wid : String) (hashes : List String) :
    Reported cfg P r (r.addWorkerHashes wid hashes).1

@[simp] theorem registry_returnRun (s : State) (w : String) :
    (s.returnRun w).registry = s.registry := by
  unfold State.returnRun
  split_ifs <;> rfl

@[simp] theorem registry_failRun (s : State) (w : String) (m : Option String) :
    (s.failRun w m).registry = s.registry := registry_returnRun _ w

theorem registry_retryOrFail (s : State) (w : String) (f : Frame) (c : Option FailureCategory)
    (m : String) : (s.retryOrFail cfg w f c m).registry = s.registry := by
  unfold State.retryOrFail
  split_ifs
  · rfl
  · exact registry_failRun s w _

theorem registry_enqueueWorkload (s : State) (w : String) :
    (s.enqueueWorkload w).registry = s.registry := by
  unfold State.enqueueWorkload
  split_ifs
  · rfl
  · split <;> rfl

theorem registry_checkpointResult (s : State) (w : String) (f : Frame) (d : Dispatch)
    (r : WorkloadExecutionResult) : (s.checkpointResult w f d r).registry = s.registry := by
  unfold State.checkpointResult
  dsimp only
  rw [registry_returnRun, registry_enqueueWorkload]
  split <;> rfl

theorem reported_recordArtifacts (s : State) (r : WorkloadExecutionResult) :
    Reported cfg P s.registry (s.recordArtifacts r).registry := by
  unfold State.recordArtifacts
  split_ifs
  · exact .outputs _ _
  · exact .same

theorem reported_successResult (s : State) (w : String) (f : Frame) (d : Dispatch)
    (r : WorkloadExecutionResult) :
    Reported cfg P s.registry (s.successResult w f d r).registry := by
  unfold State.successResult
  rw [registry_returnRun]
  exact reported_recordArtifacts ((s.setResult w r).updateState w .completed) r

theorem reported_recordFailures (s : State) {ids : List String} (now : ℚ) (h : ∀ x ∈ ids, P x) :
    Reported cfg P s.registry (s.recordFailures cfg ids now).registry := .failures ids now h

theorem registry_settleFailure (s : State) (d : Dispatch) (r : WorkloadExecutionResult)
    (u : PySet String) (b : Bool) : (s.settleFailure d r u b).registry = s.registry := by
  unfold State.settleFailure
  split_ifs <;> rfl

theorem reported_failureResult {u : PySet String} (s : State) (w : String) (f : Frame)
    (d : Dispatch)
    (r : WorkloadExecutionResult) (b : Bool) (now : ℚ) (hu : ∀ x ∈ u, P x) :
    Reported cfg P s.registry (s.failureResult cfg w f d r u b now).registry := by
  have hfail : Reported cfg P s.registry
      ((s.settleFailure d r u b).recordFailures cfg u.toList now).registry := by
    rw [← registry_settleFailure s d r u b]
    exact reported_recordFailures _ now hu
  have hsame : Reported cfg P s.registry (s.settleFailure d r u b).registry := by
    rw [registry_settleFailure]
    exact .same
  unfold State.failureResult
  dsimp only
  split_ifs
  · exact hfail
  · rw [registry_failRun]
    exact hfail
  · exact hsame
  · rw [registry_failRun]
    exact hsame
  · exact hsame
  · rw [registry_failRun]
    exact hsame

theorem reported_settleResult {u : PySet String} (s : State) (w : String) (f : Frame) (d : Dispatch)
    (r : WorkloadExecutionResult) (b : Bool) (now : ℚ) (hu : ∀ x ∈ u, P x) :
    Reported cfg P s.registry (s.settleResult cfg w f d r u b now).registry := by
  unfold State.settleResult
  split_ifs
  · rw [registry_checkpointResult]
    exact .same
  · exact reported_successResult s w f d r
  · exact reported_failureResult s w f d r b now hu

/-- The workers that an answer may be blamed on. -/
def Blamed (s : State) (d : Dispatch) (x : String) : Prop :=
  x ∈ d.workerIds ∨ s.RecordsUnavailable d.attemptId x

theorem reported_lostGroupResult {t : PySet String} (s : State) (w : String) (f : Frame)
    (d : Dispatch) (r : WorkloadExecutionResult) (now : ℚ) (ht : ∀ x ∈ t, x ∈ d.workerIds) :
    Reported cfg (Blamed s d) s.registry (s.lostGroupResult cfg w f d r t now).registry := by
  unfold State.lostGroupResult
  refine reported_settleResult s w f d _ true now fun x hx => ?_
  rcases mem_recorded hx with hx | hx
  · exact .inl (ht x hx)
  · exact .inr hx

theorem reported_handleResult {u t : PySet String} (s : State) (w : String) (f : Frame)
    (d : Dispatch) (r : WorkloadExecutionResult) (now : ℚ) (hu : ∀ x ∈ u, x ∈ d.workerIds)
    (ht : ∀ x ∈ t, x ∈ d.workerIds) :
    Reported cfg (Blamed s d) s.registry (s.handleResult cfg w f d r u t now).registry := by
  unfold State.handleResult
  dsimp only
  split_ifs
  · unfold State.cancelledResult
    rw [registry_returnRun]
    exact .same
  · split
    · exact .same
    · exact reported_lostGroupResult s w f d _ now ht
  · exact reported_settleResult s w f d _ false now fun x hx => .inl (hu x hx)

theorem registry_settleException (s : State) (d : Dispatch) (m : String) :
    (s.settleException d m).registry = s.registry := by
  unfold State.settleException
  split_ifs <;> rfl

/-- **What the segment after an answer does to the workers.** -/
theorem reported_handleReply (s : State) (w : String) (f : Frame) (d : Dispatch) (now : ℚ)
    (hreports : ∀ x, reply.Reports x → x ∈ d.workerIds) :
    Reported cfg (Blamed s d) s.registry (s.handleReply cfg w f d now reply).registry := by
  have hown : Reported cfg (Blamed s d) s.registry
      (s.recordFailures cfg d.workerIds now).registry :=
    reported_recordFailures s now fun x hx => .inl hx
  cases reply with
  | result r u t =>
    exact reported_handleResult s w f d r now (fun x hx => hreports x (.inl hx))
      fun x hx => hreports x (.inr hx)
  | recordLost m =>
    show Reported _ _ _ (s.handleRecordLost cfg w f d m now).registry
    unfold State.handleRecordLost
    rw [registry_retryOrFail]
    exact hown
  | submitUnavailable m =>
    show Reported _ _ _ (s.handleSubmitUnavailable cfg w f d m now).registry
    unfold State.handleSubmitUnavailable
    rw [registry_retryOrFail]
    exact hown
  | otherException m =>
    have hsettle : Reported cfg (Blamed s d) s.registry
        ((s.recordFailures cfg d.workerIds now).settleException d m).registry := by
      rw [registry_settleException]
      exact hown
    show Reported _ _ _ (s.handleOtherException cfg w f d m now).registry
    unfold State.handleOtherException
    dsimp only
    split_ifs <;> exact hsettle

/-! ## All steps -/

/-- How a step leaves the worker registry. -/
inductive RegistryStep (cfg : Config) (s : State) (a : Action) (s' : State) : Prop
  | reported (w : String) (f : Frame) (d : Dispatch) (hat : AtAttempt s w f d)
      (hreg : Reported cfg (Blamed s d) s.registry s'.registry)
  | evicted (now : ℚ) (ha : a = .evictionPass now)
      (hreg : s'.registry = (s.registry.evictExpiredWorkers cfg.registry none now).1)
  | called (op : WorkerRegistry.Op) (ha : a = .registryOp op)
      (hreg : s'.registry = s.registry.apply cfg.registry op)
  | restarted (now : ℚ) (ha : a = .restart now)
      (hreg : s'.registry = State.restoreWorkers cfg s.registry now)
  | same (hreg : s'.registry = s.registry)

theorem registry_noDecision (s : State) (w : String) (f : Frame) :
    (s.noDecision w f).registry = s.registry := by
  unfold State.noDecision
  dsimp only
  split_ifs
  · exact registry_returnRun _ w
  · exact registry_failRun _ w _
  · exact registry_failRun _ w _
  · exact registry_returnRun _ w

theorem registry_place {ranking : Ranking} {now : ℚ} {execId : String}
    (h : s.place cfg w ranking now execId = some s') : s'.registry = s.registry := by
  unfold State.place at h
  split at h
  · rename_i f₀ hpc
    dsimp only at h
    have hspare := (promoteSpare_frame s f₀).2.1
    split_ifs at h
    · obtain rfl := Option.some.inj h
      rw [registry_returnRun, hspare]
    · split at h
      · obtain rfl := Option.some.inj h
        rw [registry_noDecision, hspare]
      · obtain rfl := Option.some.inj h
        rw [registry_noDecision, hspare]
      · obtain rfl := Option.some.inj h
        refine Eq.trans ?_ hspare
        unfold State.launch
        dsimp only
        split_ifs
        · exact registry_retryOrFail _ w _ _ _
        · rfl
  · cases h

theorem registry_enterLoop (s : State) (w : String) (f : Frame) :
    (s.enterLoop cfg w f).registry = s.registry := by
  have hspare := (promoteSpare_frame ((s.updateState w .validating).updateState w .placing) f).2.1
  unfold State.enterLoop
  dsimp only
  split_ifs
  · exact registry_failRun _ w _
  · rw [registry_failRun]
    exact hspare
  · exact hspare

theorem registry_dependencyState (s : State) (w : String) (deps : List String) :
    (s.dependencyState w deps).1.registry = s.registry := by
  rcases dependencyState_cases s w deps with h | ⟨-, m, h⟩ <;> rw [h]
  rfl

theorem registry_startRun (h : s.startRun cfg w = some s') : s'.registry = s.registry := by
  unfold State.startRun at h
  split at h
  · split at h
    · obtain rfl := Option.some.inj h
      exact registry_returnRun s w
    · rename_i record hrecord
      split_ifs at h
      · obtain rfl := Option.some.inj h
        exact registry_returnRun s w
      · have hdeps := registry_dependencyState s w record.spec.dependsOn
        split at h
        · rename_i s₁ heq
          rw [heq] at hdeps
          split at h <;> obtain rfl := Option.some.inj h
          · rw [registry_enterLoop]
            exact hdeps
          · rw [registry_returnRun]
            exact hdeps
        · rename_i s₁ st hst heq
          rw [heq] at hdeps
          obtain rfl := Option.some.inj h
          rw [registry_returnRun]
          exact hdeps
  · cases h

theorem registry_foldl_handleWorkerLost (s : State) (l : List String) :
    (l.foldl State.handleWorkerLost s).registry = s.registry := by
  induction l generalizing s with
  | nil => rfl
  | cons x l ih => exact ih (s.handleWorkerLost x)

/-- **What a step can do to the workers.** -/
theorem step_registryStep (hs : DispatchInv s) (h : step cfg s a = some s') :
    RegistryStep cfg s a s' := by
  cases a with
  | submitWorkload spec =>
    obtain rfl := Option.some.inj h
    refine .same ?_
    show (s.submitWorkload cfg spec).registry = _
    unfold State.submitWorkload State.addWorkload
    split
    · rename_i s₁ heq
      rw [registry_enqueueWorkload]
      split at heq
      · split_ifs at heq
        rw [Option.some.inj heq]
      · rw [← Option.some.inj heq]
    · rfl
  | createJob job =>
    obtain rfl := Option.some.inj h
    refine .same ?_
    show (s.createJob job).registry = _
    unfold State.createJob
    split <;> rfl
  | admissionPass order =>
    obtain ⟨ws, q, p, r, rfl⟩ := admissionPass_writes h
    exact .same rfl
  | admissionTimeout =>
    obtain rfl := Option.some.inj h
    exact .same rfl
  | startRun w => exact .same (registry_startRun h)
  | place w ranking now execId => exact .same (registry_place h)
  | callEvent w i event =>
    obtain ⟨f', d', c, phase, -, rfl⟩ := advanceCall_cases h
    exact .same rfl
  | resume w now =>
    obtain ⟨f, d, reply, hpc, hreply, rfl, -⟩ := resume_cases h
    refine .reported w f d (.inl hpc) (reported_handleReply s w f d now fun x hx => ?_)
    rw [← (hs.own w f d (.inl hpc)).calls]
    exact reports_dispatchReply hreply hx
  | drainResume w now =>
    change s.drainResume cfg w now = some s' at h
    unfold State.drainResume at h
    split at h
    · rename_i f d r t hpc
      split_ifs at h
      obtain rfl := Option.some.inj h
      refine .reported w f d (.inr ⟨r, t, hpc⟩) ?_
      exact reported_lostGroupResult { s with drainEvents := s.drainEvents.erase d.attemptId } w f d
        r now (hs.transport w f d r t hpc)
    · cases h
  | finishRun w =>
    change s.finishRun w = some s' at h
    unfold State.finishRun at h
    split at h
    · obtain rfl := Option.some.inj h
      exact .same rfl
    · cases h
  | cancelStart w =>
    obtain rfl := Option.some.inj h
    refine .same ?_
    show (s.cancelStart w).registry = _
    unfold State.cancelStart
    split
    · rfl
    · split_ifs
      · rfl
      · dsimp only
        split_ifs <;> rfl
  | cancelFinish w =>
    change s.cancelFinish w = some s' at h
    unfold State.cancelFinish at h
    split_ifs at h
    obtain rfl := Option.some.inj h
    exact .same rfl
  | workerLost x =>
    obtain rfl := Option.some.inj h
    exact .same rfl
  | evictionPass now =>
    obtain rfl := Option.some.inj h
    exact .evicted now rfl (registry_foldl_handleWorkerLost _ _)
  | drainStart x =>
    obtain rfl := Option.some.inj h
    refine .same ?_
    show (s.drainStart x).registry = _
    unfold State.drainStart
    dsimp only
    split_ifs <;> rfl
  | drainFinish i =>
    obtain ⟨ids, -, rfl⟩ := Option.map_eq_some_iff.1 h
    exact .same rfl
  | registryOp op =>
    obtain rfl := Option.some.inj h
    exact .called op rfl rfl
  | steal i =>
    obtain ⟨⟨idle, j⟩, -, rfl⟩ := Option.map_eq_some_iff.1 h
    refine .same ?_
    unfold State.maybeSpeculativeStealStraggler
    dsimp only
    split_ifs
    · split <;> rfl
    · rfl
  | clone i now =>
    obtain ⟨⟨v, x⟩, -, rfl⟩ := Option.map_eq_some_iff.1 h
    refine .same ?_
    dsimp only
    split
    · rename_i s₁ heq
      rw [executeSpeculativeAttempt_ok heq]
    · rfl
  | restart now =>
    obtain rfl := Option.some.inj h
    exact .restarted now rfl rfl

end Aidars.Orchestrator
