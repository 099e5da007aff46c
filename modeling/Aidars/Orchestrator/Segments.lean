import Aidars.Orchestrator.Frames

/-!
# What the segments of a run can do

For each segment of `_process_workload`, one lemma says all that it can do: how it changes the
attempts, and how it ends. It ends with the return of the run, or with another round of the loop
(`Ending`). `startRun_cases`, `place_cases`, `handleReply_cases` and `drainResume_cases` are these
lemmas; the results about whole runs are derived from them.
-/

namespace Aidars.Orchestrator

variable {cfg : Config} {s s' : State} {w : String} {f : Frame} {d : Dispatch}

/-- The run of the workload has returned. -/
def Returned (w : String) (s : State) : Prop :=
  s.runs.get? w = none ∨ s.runs.get? w = some .finishing

/-- A workload that is registered is not completed, failed or unschedulable. -/
def Live (st : Option WorkloadState) : Prop :=
  ∀ x, st = some x → x.isTerminal = true → x = .cancelled

/-- How a segment of a run ends. In the last case the workload has failed with a spent budget, and
the loop goes round all the same. -/
inductive Ending (cfg : Config) (s s' : State) (w : String) (f : Frame) (spent : Prop) : Prop
  | returned (hpc : Returned w s')
  | retried (f' : Frame) (hpc : s'.runs.get? w = some (.lockWait f'))
      (hused : f'.attemptsUsed = f.attemptsUsed + 1) (hbudget : f.attemptsUsed < cfg.maxAttempts)
      (hlive : Live (s.stateOf w) → Live (s'.stateOf w))
  | overran (f' : Frame) (hpc : s'.runs.get? w = some (.lockWait f'))
      (hused : f'.attemptsUsed = f.attemptsUsed + 1) (hspent : spent)

/-- How the attempts change when the run of `w` settles its attempt. -/
inductive Settled (w id : String) (reg : AttemptRegistry) : AttemptStatus → AttemptRegistry → Prop
  | failed (c : Option FailureCategory) (m : Option String) (r : Option WorkloadExecutionResult) :
    Settled w id reg .failed (reg.markFailed id c m r)
  | lost (m : Option String) (u : List String) : Settled w id reg .lost (reg.markLost id m u)
  | checkpointed (r : WorkloadExecutionResult) :
    Settled w id reg .succeeded (reg.markSucceeded id r)
  | succeeded (r : WorkloadExecutionResult) (ids : List String)
      (hids : ∀ id' ∈ ids, ∃ a ∈ reg.listAttemptsForWorkload w,
        a.attemptId = id' ∧ a.status.isActive = true) :
    Settled w id reg .succeeded ((State.supersede reg ids).markSucceeded id r)

/-! ## Reading the state after an operation -/

@[simp] theorem stateOf_updateState (s : State) (w : String) (st : WorkloadState)
    (m : Option String) : (s.updateState w st m).stateOf w = (s.stateOf w).map fun _ => st := by
  simp only [State.stateOf, State.updateState, State.modifyWorkload, Dict.get?_modify, if_true,
    Option.map_map]
  rfl

@[simp] theorem stateOf_setPlacement (s : State) (w v : String) (p : Option PlacementDecision) :
    (s.setPlacement w p).stateOf v = s.stateOf v := by
  unfold State.stateOf State.setPlacement State.modifyWorkload
  dsimp only
  rw [Dict.get?_modify]
  split
  · rename_i hv
    rw [hv, Option.map_map]
    rfl
  · rfl

@[simp] theorem stateOf_setPc (s : State) (w v : String) (pc : Pc) :
    (s.setPc w pc).stateOf v = s.stateOf v := rfl

@[simp] theorem workloads_returnRun (s : State) (w : String) :
    (s.returnRun w).workloads = s.workloads := by
  unfold State.returnRun
  split_ifs <;> rfl

@[simp] theorem attempts_returnRun (s : State) (w : String) :
    (s.returnRun w).attempts = s.attempts := by
  unfold State.returnRun
  split_ifs <;> rfl

@[simp] theorem drainEvents_returnRun (s : State) (w : String) :
    (s.returnRun w).drainEvents = s.drainEvents := by
  unfold State.returnRun
  split_ifs <;> rfl

theorem returned_returnRun (s : State) (w : String) : Returned w (s.returnRun w) := by
  unfold Returned State.returnRun
  split_ifs
  · exact .inr (by simp)
  · exact .inl (by simp)

@[simp] theorem attempts_failRun (s : State) (w : String) (m : Option String) :
    (s.failRun w m).attempts = s.attempts := attempts_returnRun _ w

@[simp] theorem drainEvents_failRun (s : State) (w : String) (m : Option String) :
    (s.failRun w m).drainEvents = s.drainEvents := drainEvents_returnRun _ w

theorem returned_failRun (s : State) (w : String) (m : Option String) :
    Returned w (s.failRun w m) := returned_returnRun _ w

theorem attempts_promoteSpare (s : State) (f : Frame) :
    (s.promoteSpare f).1.attempts = s.attempts := by
  unfold State.promoteSpare
  split
  · split
    · split_ifs <;> rfl
    · rfl
  · rfl

theorem promoteSpare_frame (s : State) (f : Frame) :
    (s.promoteSpare f).1.workloads = s.workloads ∧ (s.promoteSpare f).1.registry = s.registry ∧
      (s.promoteSpare f).1.drainEvents = s.drainEvents ∧
      (s.promoteSpare f).2.attemptsUsed = f.attemptsUsed := by
  unfold State.promoteSpare
  split
  · split
    · split_ifs <;> exact ⟨rfl, rfl, rfl, rfl⟩
    · exact ⟨rfl, rfl, rfl, rfl⟩
  · exact ⟨rfl, rfl, rfl, rfl⟩

theorem live_map {st : WorkloadState} (h : st.isTerminal = false) (x : Option WorkloadState) :
    Live (x.map fun _ => st) := by
  intro y hy ht
  obtain ⟨-, -, rfl⟩ := Option.map_eq_some_iff.1 hy
  rw [h] at ht
  cases ht

theorem runs_setPc (s : State) (w : String) (pc : Pc) : (s.setPc w pc).runs.get? w = some pc := by
  simp [State.setPc]

theorem runs_nextAttempt (s : State) (w : String) (f : Frame) :
    (s.nextAttempt w f).runs.get? w =
      some (.lockWait { f with attemptsUsed := f.attemptsUsed + 1 }) := runs_setPc s w _

theorem shouldRetry_lt {c : Option FailureCategory} {n m : ℕ} (h : shouldRetry c n m = true) :
    n < m := by
  unfold shouldRetry at h
  rw [Bool.and_eq_true, decide_eq_true_iff] at h
  exact h.2

/-- Retrying or failing leaves the attempts alone. -/
theorem attempts_retryOrFail (s : State) (w : String) (f : Frame) (c : Option FailureCategory)
    (m : String) : (s.retryOrFail cfg w f c m).attempts = s.attempts ∧
      (s.retryOrFail cfg w f c m).drainEvents = s.drainEvents := by
  unfold State.retryOrFail
  split_ifs
  · exact ⟨rfl, rfl⟩
  · exact ⟨attempts_failRun s w _, drainEvents_failRun s w _⟩

/-- `retryOrFail` retries within the budget, or returns. -/
theorem ending_retryOrFail {s₀ : State} {f₀ : Frame} {c : Option FailureCategory} {m : String}
    {spent : Prop} (hused : f.attemptsUsed = f₀.attemptsUsed)
    (hlive : Live (s₀.stateOf w) → Live (s.stateOf w)) :
    Ending cfg s₀ (s.retryOrFail cfg w f c m) w f₀ spent := by
  unfold State.retryOrFail
  split_ifs with h
  · refine .retried _ (runs_nextAttempt s w f) ?_ ?_ hlive
    · rw [← hused]
    · rw [← hused]
      exact shouldRetry_lt h
  · exact .returned (returned_failRun s w _)

/-! ## The first segment -/

/-- A check of dependencies leaves the state alone or fails the workload. -/
theorem dependencyState_cases (s : State) (w : String) (deps : List String) :
    (s.dependencyState w deps).1 = s ∨ ((s.dependencyState w deps).2 = .failed ∧
      ∃ m, (s.dependencyState w deps).1 = s.updateState w .failed m) := by
  induction deps with
  | nil => exact .inl rfl
  | cons dep deps ih =>
    unfold State.dependencyState
    split
    · exact .inl rfl
    · split_ifs
      · exact .inr ⟨rfl, _, rfl⟩
      · exact .inl rfl
      · exact ih

theorem dependencyState_ready (s : State) (w : String) (deps : List String)
    (h : (s.dependencyState w deps).2 = .ready) : (s.dependencyState w deps).1 = s := by
  refine (dependencyState_cases s w deps).resolve_right fun hfailed => ?_
  rw [h] at hfailed
  cases hfailed.1

theorem enterLoop_cases (s : State) (w : String) (f : Frame) :
    (s.enterLoop cfg w f).attempts = s.attempts ∧
      (s.enterLoop cfg w f).drainEvents = s.drainEvents ∧
      (Returned w (s.enterLoop cfg w f) ∨ ∃ f',
        (s.enterLoop cfg w f).runs.get? w = some (.lockWait f') ∧
        f'.attemptsUsed = f.attemptsUsed + 1 ∧
        (f.attemptsUsed < cfg.maxAttempts ∨ f.attemptsUsed = 0) ∧
        Live ((s.enterLoop cfg w f).stateOf w)) := by
  unfold State.enterLoop
  dsimp only
  generalize hs₁ : (s.updateState w .validating).updateState w .placing = s₁
  have hattempts : s₁.attempts = s.attempts := by rw [← hs₁]; rfl
  have hevents : s₁.drainEvents = s.drainEvents := by rw [← hs₁]; rfl
  have hlive : Live (s₁.stateOf w) := by
    rw [← hs₁, stateOf_updateState]
    exact live_map rfl _
  obtain ⟨hw, -, he, hu⟩ := promoteSpare_frame s₁ f
  have ha := attempts_promoteSpare s₁ f
  split_ifs with hbudget hex
  · exact ⟨by rw [attempts_failRun, hattempts], by rw [drainEvents_failRun, hevents],
      .inl (returned_failRun s₁ w _)⟩
  · exact ⟨by rw [attempts_failRun, ha, hattempts], by rw [drainEvents_failRun, he, hevents],
      .inl (returned_failRun _ w _)⟩
  · refine ⟨ha.trans hattempts, he.trans hevents,
      .inr ⟨_, runs_nextAttempt _ w _, ?_, by omega, ?_⟩⟩
    · rw [← hu]
    · have : ((s₁.promoteSpare f).1.nextAttempt w (s₁.promoteSpare f).2).stateOf w =
          s₁.stateOf w := by
        rw [State.nextAttempt, stateOf_setPc, State.stateOf, State.stateOf, hw]
      rw [this]
      exact hlive

/-- **What the first segment can do.** -/
theorem startRun_cases (h : s.startRun cfg w = some s') :
    s.runs.get? w = some .start ∧ s'.attempts = s.attempts ∧ s'.drainEvents = s.drainEvents ∧
      (s.isCancelled w = true → s'.workloads = s.workloads) ∧
      (Returned w s' ∨ ∃ f', s'.runs.get? w = some (.lockWait f') ∧
        f'.attemptsUsed = s.attempts.attemptsUsed w + 1 ∧
        (s.attempts.attemptsUsed w < cfg.maxAttempts ∨ s.attempts.attemptsUsed w = 0) ∧
        Live (s'.stateOf w)) := by
  unfold State.startRun at h
  split at h
  · rename_i hpc
    refine ⟨hpc, ?_⟩
    split at h
    · obtain rfl := Option.some.inj h
      exact ⟨attempts_returnRun s w, drainEvents_returnRun s w, fun _ => workloads_returnRun s w,
        .inl (returned_returnRun s w)⟩
    · rename_i record hrecord
      have hcancelled : s.isCancelled w = record.state.isCancelled := by
        simp only [State.isCancelled, State.stateOf, hrecord, Option.map_some, Option.any_some]
      have hdep := dependencyState_cases s w record.spec.dependsOn
      have hready := dependencyState_ready s w record.spec.dependsOn
      split_ifs at h with hc
      · obtain rfl := Option.some.inj h
        exact ⟨attempts_returnRun s w, drainEvents_returnRun s w, fun _ => workloads_returnRun s w,
          .inl (returned_returnRun s w)⟩
      · have hnot : s.isCancelled w = true → s'.workloads = s.workloads := by
          rw [hcancelled]
          exact fun h => absurd h hc
        split at h
        · rename_i s₁ hs
          rw [hs] at hready
          obtain rfl : s₁ = s := hready rfl
          split at h
          · rename_i spec _
            obtain rfl := Option.some.inj h
            obtain ⟨ha, he, hend⟩ := enterLoop_cases s₁ w (s₁.initialFrame w spec)
            exact ⟨ha, he, hnot, hend⟩
          · obtain rfl := Option.some.inj h
            exact ⟨attempts_returnRun s₁ w, drainEvents_returnRun s₁ w, hnot,
              .inl (returned_returnRun s₁ w)⟩
        · rename_i s₁ _ _ hs
          rw [hs] at hdep
          obtain rfl := Option.some.inj h
          rcases hdep with rfl | ⟨-, m, rfl⟩ <;>
            exact ⟨attempts_returnRun _ w, drainEvents_returnRun _ w, hnot,
              .inl (returned_returnRun _ w)⟩
  · cases h

/-! ## Placement -/

/-- **The workers of a decision are eligible candidates**, also with the workers that the affinity
group uses. -/
theorem choose_eligible {ranking : Ranking} {now : ℚ} {ds : List PlacementDecision}
    (h : s.choose cfg w f ranking now = some ds) : ∀ d ∈ ds,
      ∃ p ∈ Placement.buildWorkerProfiles s.attempts (s.candidateWorkers f),
        p.workerId = d.selectedWorkerId ∧ ∃ ctx : PlacementContext,
          ctx.groupWorkers = s.groupWorkers w f.spec ∧
            Placement.eligible cfg.text ctx f.spec p = true := by
  intro d hd
  unfold State.choose at h
  dsimp only at h
  split_ifs at h
  · obtain ⟨p, hp, hid, he⟩ := Placement.evaluateGroup_eligible h d hd
    exact ⟨p, hp, hid, _, rfl, he⟩
  all_goals
    obtain ⟨d₀, hd₀, rfl⟩ := Option.map_eq_some_iff.1 h
    obtain rfl := List.mem_singleton.1 hd
  · rcases Option.or_eq_some_iff.1 hd₀ with heval | ⟨-, heval⟩
    · obtain ⟨p, hp, hid, he⟩ := Placement.evaluate_eligible heval
      exact ⟨p, List.mem_of_mem_filter hp, hid, _, rfl, he⟩
    · obtain ⟨p, hp, hid, he⟩ := Placement.evaluate_eligible heval
      exact ⟨p, hp, hid, _, rfl, he⟩
  · obtain ⟨p, hp, hid, he⟩ := Placement.evaluate_eligible
      ((Option.or_eq_some_iff.1 hd₀).resolve_left fun hn => by cases hn).2
    exact ⟨p, hp, hid, _, rfl, he⟩

/-- The attempts with a new one of `w` that is assigned. -/
def assignNew (reg : AttemptRegistry) (w : String) (decision : PlacementDecision)
    (group : Option ExecutionGroup) : AttemptRegistry :=
  (reg.createAttempt w (some decision) group).markAssigned (reg.nextId w) decision.selectedWorkerId

/-- How the launch of an attempt ends: it is dispatched, or it is lost. -/
inductive Launched (cfg : Config) (s s' : State) (w : String) (f : Frame)
    (decision : PlacementDecision) (group : Option ExecutionGroup) : Prop
  | dispatched (d : Dispatch) (hpc : s'.runs.get? w = some (.dispatch f d))
      (hid : d.attemptId = s.attempts.nextId w)
      (hattempts : s'.attempts =
        (assignNew s.attempts w decision group).markRunning (s.attempts.nextId w))
      (hlive : Live (s'.stateOf w))
  | vanished (m : Option String) (u : List String)
      (hattempts : s'.attempts =
        (assignNew s.attempts w decision group).markLost (s.attempts.nextId w) m u)
      (hend : Ending cfg s s' w f False)

theorem noDecision_cases (s : State) (w : String) (f : Frame) :
    (s.noDecision w f).attempts = s.attempts ∧ (s.noDecision w f).drainEvents = s.drainEvents ∧
      Returned w (s.noDecision w f) := by
  unfold State.noDecision
  dsimp only
  split_ifs
  · exact ⟨attempts_returnRun _ w, drainEvents_returnRun _ w, returned_returnRun _ w⟩
  · exact ⟨attempts_failRun _ w _, drainEvents_failRun _ w _, returned_failRun _ w _⟩
  · exact ⟨attempts_failRun _ w _, drainEvents_failRun _ w _, returned_failRun _ w _⟩
  · exact ⟨attempts_returnRun _ w, drainEvents_returnRun _ w, returned_returnRun _ w⟩

theorem launch_cases (s : State) (w : String) (f : Frame) (decision : PlacementDecision)
    (group : Option ExecutionGroup) (workers : List WorkerInfo) :
    ((s.recordAttempt w decision group).launch cfg w f (s.attempts.nextId w) decision group
      workers).drainEvents = s.drainEvents ∧
    Launched cfg s ((s.recordAttempt w decision group).launch cfg w f (s.attempts.nextId w) decision
      group workers) w f decision group := by
  have hattempts : (s.recordAttempt w decision group).attempts =
      assignNew s.attempts w decision group := rfl
  have hlive : Live ((s.recordAttempt w decision group).stateOf w) := by
    have : (s.recordAttempt w decision group).stateOf w =
      ((s.setPlacement w (some decision)).updateState w .placed).stateOf w := rfl
    rw [this, stateOf_updateState]
    exact live_map rfl _
  unfold State.launch
  dsimp only
  split_ifs
  · refine ⟨(attempts_retryOrFail _ w _ _ _).2, .vanished _ _ (attempts_retryOrFail _ w _ _ _).1 ?_⟩
    exact ending_retryOrFail rfl fun _ => hlive
  · refine ⟨rfl, .dispatched _ (by simp only [State.setPc, Dict.get?_set, if_true]; rfl) rfl rfl ?_⟩
    rw [stateOf_setPc, stateOf_updateState]
    exact live_map rfl _

/-- **What placement can do**: nothing is recorded and the run returns, or a new attempt is recorded
for decisions that placement made. -/
theorem place_cases {ranking : Ranking} {now : ℚ} {execId : String}
    (h : s.place cfg w ranking now execId = some s') :
    ∃ f₀, s.runs.get? w = some (.lockWait f₀) ∧ s'.drainEvents = s.drainEvents ∧
      ((s'.attempts = s.attempts ∧ Returned w s') ∨
        ∃ f decision rest, f.attemptsUsed = f₀.attemptsUsed ∧
          (s.promoteSpare f₀).1.choose cfg w f ranking now = some (decision :: rest) ∧
          Launched cfg (s.promoteSpare f₀).1 s' w f decision
            (State.newGroup f execId (decision :: rest))) := by
  unfold State.place at h
  split at h
  · rename_i f₀ hpc
    refine ⟨f₀, hpc, ?_⟩
    dsimp only at h
    obtain ⟨-, -, he, hu⟩ := promoteSpare_frame s f₀
    have ha := attempts_promoteSpare s f₀
    split_ifs at h
    · obtain rfl := Option.some.inj h
      exact ⟨(drainEvents_returnRun _ w).trans he,
        .inl ⟨(attempts_returnRun _ w).trans ha, returned_returnRun _ w⟩⟩
    · split at h
      · obtain rfl := Option.some.inj h
        obtain ⟨hna, hne, hnr⟩ := noDecision_cases (s.promoteSpare f₀).1 w (s.promoteSpare f₀).2
        exact ⟨hne.trans he, .inl ⟨hna.trans ha, hnr⟩⟩
      · obtain rfl := Option.some.inj h
        obtain ⟨hna, hne, hnr⟩ := noDecision_cases (s.promoteSpare f₀).1 w (s.promoteSpare f₀).2
        exact ⟨hne.trans he, .inl ⟨hna.trans ha, hnr⟩⟩
      · rename_i decision rest hchoose
        obtain rfl := Option.some.inj h
        obtain ⟨hle, hl⟩ := launch_cases (s.promoteSpare f₀).1 w (s.promoteSpare f₀).2 decision
          (State.newGroup (s.promoteSpare f₀).2 execId (decision :: rest))
          ((s.promoteSpare f₀).1.candidateWorkers (s.promoteSpare f₀).2)
        exact ⟨hle.trans he, .inr ⟨_, decision, rest, hu, hchoose, hl⟩⟩
  · cases h

/-! ## The answer of a dispatch -/

/-- An answer that leaves a lost attempt lost: a result that does not arrive for a cancelled
workload and, from a single worker, is a plain failure; a lost record; and for a group any other
exception. -/
def Reply.KeepsLost (s : State) (w : String) (d : Dispatch) : Reply → Prop
  | .result r _ _ => s.isCancelled w = false ∧
      (d.executionGroup.isSome = true ∨ (r.success = false ∧ r.wasCheckpointed = false))
  | .recordLost _ => True
  | .submitUnavailable _ => False
  | .otherException _ => d.executionGroup.isSome = true

instance (s : State) (w : String) (d : Dispatch) (reply : Reply) :
    Decidable (reply.KeepsLost s w d) := by
  apply reply.casesOn (motive := fun reply => Decidable (reply.KeepsLost s w d)) <;> intros <;>
    unfold Reply.KeepsLost <;> infer_instance

/-- The answer is an exception of another kind. -/
def Reply.IsOther : Reply → Prop
  | .otherException _ => True
  | _ => False

theorem settled_checkpointResult (s : State) (w : String) (f : Frame) (d : Dispatch)
    (r : WorkloadExecutionResult) :
    (s.checkpointResult w f d r).attempts = s.attempts.markSucceeded d.attemptId r ∧
      (s.checkpointResult w f d r).drainEvents = s.drainEvents ∧
      Returned w (s.checkpointResult w f d r) := by
  have henqueue : ∀ s₀ : State, (s₀.enqueueWorkload w).attempts = s₀.attempts ∧
      (s₀.enqueueWorkload w).drainEvents = s₀.drainEvents := by
    intro s₀
    unfold State.enqueueWorkload
    split_ifs
    · exact ⟨rfl, rfl⟩
    · split <;> exact ⟨rfl, rfl⟩
  unfold State.checkpointResult
  dsimp only
  refine ⟨?_, ?_, returned_returnRun _ w⟩
  · rw [attempts_returnRun, (henqueue _).1]
    split <;> rfl
  · rw [drainEvents_returnRun, (henqueue _).2]
    split <;> rfl

theorem mem_otherActiveAttempts {id id' : String} (h : id' ∈ s.otherActiveAttempts w id) :
    ∃ a ∈ s.attempts.listAttemptsForWorkload w, a.attemptId = id' ∧ a.status.isActive = true := by
  obtain ⟨a, ha, rfl⟩ := List.mem_map.1 h
  obtain ⟨hmem, hp⟩ := List.mem_filter.1 ha
  simp only [Bool.and_eq_true] at hp
  exact ⟨a, hmem, rfl, hp.1.2⟩

theorem settled_successResult (s : State) (w : String) (f : Frame) (d : Dispatch)
    (r : WorkloadExecutionResult) :
    Settled w d.attemptId s.attempts .succeeded (s.successResult w f d r).attempts ∧
      (s.successResult w f d r).drainEvents = s.drainEvents ∧
      Returned w (s.successResult w f d r) := by
  have hrecord : ∀ s₀ : State, (s₀.recordArtifacts r).attempts = s₀.attempts ∧
      (s₀.recordArtifacts r).drainEvents = s₀.drainEvents := by
    intro s₀
    unfold State.recordArtifacts
    split_ifs <;> exact ⟨rfl, rfl⟩
  obtain ⟨ha, he⟩ := hrecord ((s.setResult w r).updateState w .completed)
  unfold State.successResult
  dsimp only
  refine ⟨?_, ?_, returned_returnRun _ w⟩
  · rw [attempts_returnRun]
    dsimp only
    rw [ha]
    refine .succeeded r _ fun id' hid => ?_
    have := mem_otherActiveAttempts hid
    rwa [ha] at this
  · rw [drainEvents_returnRun]
    exact he

theorem settled_settleFailure (s : State) (w : String) (d : Dispatch) (r : WorkloadExecutionResult)
    (u : PySet String) (b : Bool) :
    ∃ st, Settled w d.attemptId s.attempts st (s.settleFailure d r u b).attempts ∧
      st ≠ .succeeded ∧ (b = true ∨ s.isLost d.attemptId = true → st = .lost) ∧
      (s.settleFailure d r u b).workloads = s.workloads ∧
      (s.settleFailure d r u b).drainEvents = s.drainEvents := by
  unfold State.settleFailure
  split_ifs with h
  · exact ⟨.lost, .lost _ _, by decide, fun _ => rfl, rfl, rfl⟩
  · refine ⟨.failed, .failed _ _ _, by decide, fun hb => ?_, rfl, rfl⟩
    exact absurd (.inr hb) h

/-- What handling a failed result can do. -/
theorem failureResult_cases (s : State) (w : String) (f : Frame) (d : Dispatch)
    (r : WorkloadExecutionResult) (u : PySet String) (b : Bool) (now : ℚ) (spent : Prop) :
    ∃ st, Settled w d.attemptId s.attempts st (s.failureResult cfg w f d r u b now).attempts ∧
      st ≠ .succeeded ∧ (b = true ∨ s.isLost d.attemptId = true → st = .lost) ∧
      (s.failureResult cfg w f d r u b now).drainEvents = s.drainEvents ∧
      Ending cfg s (s.failureResult cfg w f d r u b now) w f spent := by
  obtain ⟨st, hs, hst, hlost, hw, he⟩ := settled_settleFailure s w d r u b
  unfold State.failureResult
  dsimp only
  generalize s.settleFailure d r u b = s₁ at hs hw he ⊢
  -- the excluded workers and the health of workers do not matter below
  obtain ⟨s₂, f₂, heq, ha₂, hw₂, he₂, hu₂⟩ : ∃ s₂ f₂,
      (if u ≠ ∅ then (s₁.recordFailures cfg u.toList now, f.exhaust u.toList)
        else if exhausts r.failureCategory = true then
          (s₁, f.exhaust [d.decision.selectedWorkerId])
        else (s₁, f)) = (s₂, f₂) ∧ s₂.attempts = s₁.attempts ∧ s₂.workloads = s₁.workloads ∧
      s₂.drainEvents = s₁.drainEvents ∧ f₂.attemptsUsed = f.attemptsUsed := by
    split_ifs <;> exact ⟨_, _, rfl, rfl, rfl, rfl, rfl⟩
  rw [heq]
  dsimp only
  rw [← ha₂] at hs
  have hstate : s₂.stateOf w = s.stateOf w := by
    rw [State.stateOf, State.stateOf, hw₂, hw]
  refine ⟨st, ?_, hst, hlost, ?_, ?_⟩
  · split_ifs
    · exact hs
    · rw [attempts_failRun]
      exact hs
  · split_ifs
    · exact he₂.trans he
    · rw [drainEvents_failRun]
      exact he₂.trans he
  · split_ifs with hretry
    · refine .retried _ (runs_nextAttempt s₂ w f₂) ?_ ?_ ?_
      · rw [← hu₂]
      · rw [← hu₂]
        exact shouldRetry_lt hretry
      · rw [State.nextAttempt, stateOf_setPc, hstate]
        exact id
    · exact .returned (returned_failRun _ w _)

/-- What the end of handling a result can do. -/
theorem settleResult_cases (s : State) (w : String) (f : Frame) (d : Dispatch)
    (r : WorkloadExecutionResult) (u : PySet String) (b : Bool) (now : ℚ) (spent : Prop) :
    ∃ st, Settled w d.attemptId s.attempts st (s.settleResult cfg w f d r u b now).attempts ∧
      (b = true ∨ s.isLost d.attemptId = true → r.success = false → r.wasCheckpointed = false →
        st = .lost) ∧
      (s.settleResult cfg w f d r u b now).drainEvents = s.drainEvents ∧
      (st = .succeeded → Returned w (s.settleResult cfg w f d r u b now)) ∧
      Ending cfg s (s.settleResult cfg w f d r u b now) w f spent := by
  unfold State.settleResult
  split_ifs with hc hs
  · obtain ⟨ha, he, hr⟩ := settled_checkpointResult s w f d r
    refine ⟨.succeeded, ?_, ?_, he, fun _ => hr, .returned hr⟩
    · rw [ha]
      exact .checkpointed r
    · intro _ _ h
      rw [hc] at h
      cases h
  · obtain ⟨ha, he, hr⟩ := settled_successResult s w f d r
    refine ⟨.succeeded, ha, ?_, he, fun _ => hr, .returned hr⟩
    intro _ h
    rw [hs] at h
    cases h
  · obtain ⟨st, ha, hst, hlost, he, hend⟩ := failureResult_cases s w f d r u b now spent
    exact ⟨st, ha, fun h _ _ => hlost h, he, fun h => absurd h hst, hend⟩

theorem lostGroupResult_cases (s : State) (w : String) (f : Frame) (d : Dispatch)
    (r : WorkloadExecutionResult) (t : PySet String) (now : ℚ) (spent : Prop)
    (hr : r.wasCheckpointed = false) :
    Settled w d.attemptId s.attempts .lost (s.lostGroupResult cfg w f d r t now).attempts ∧
      (s.lostGroupResult cfg w f d r t now).drainEvents = s.drainEvents ∧
      Ending cfg s (s.lostGroupResult cfg w f d r t now) w f spent := by
  unfold State.lostGroupResult
  dsimp only
  obtain ⟨st, ha, hlost, he, -, hend⟩ := settleResult_cases s w f d { r with
    success := false
    failureCategory := some .workerUnavailable
    errorMessage := some "A distributed execution group member was lost before completion" }
    _ true now spent
  obtain rfl := hlost (.inl rfl) rfl hr
  exact ⟨ha, he, hend⟩

theorem wasCheckpointed_rejectGroupCheckpoint {r : WorkloadExecutionResult}
    (h : d.executionGroup.isSome = true) :
    (State.rejectGroupCheckpoint d r).wasCheckpointed = false := by
  unfold State.rejectGroupCheckpoint
  split_ifs with hc
  · rfl
  · simpa [h] using hc

/-- What handling an answer can do: the run waits for the drain that lost its group, or the attempt
is settled with a status and the segment ends. -/
inductive Handled (cfg : Config) (s s' : State) (w : String) (f : Frame) (d : Dispatch)
    (reply : Reply) : Prop
  | drained (r : WorkloadExecutionResult) (t : PySet String)
      (heq : s' = s.setPc w (.drainWait f d r t)) (hr : r.wasCheckpointed = false)
      (hlost : s.isLost d.attemptId = true) (hevent : (s.drainEvents.get? d.attemptId).isSome)
  | settled (st : AttemptStatus) (hattempts : Settled w d.attemptId s.attempts st s'.attempts)
      (hlost : s.isLost d.attemptId = true → reply.KeepsLost s w d → st = .lost)
      (hevents : s'.drainEvents = s.drainEvents) (hreturned : st = .succeeded → Returned w s')
      (hend : Ending cfg s s' w f (reply.IsOther ∧ cfg.maxAttempts ≤ f.attemptsUsed))

theorem attempts_cancelledResult (s : State) (w : String) (d : Dispatch)
    (r : WorkloadExecutionResult) :
    Settled w d.attemptId s.attempts .failed (s.cancelledResult w d r).attempts ∧
      (s.cancelledResult w d r).drainEvents = s.drainEvents ∧
      Returned w (s.cancelledResult w d r) := by
  unfold State.cancelledResult
  dsimp only
  refine ⟨?_, drainEvents_returnRun _ w, returned_returnRun _ w⟩
  rw [attempts_returnRun]
  exact .failed _ _ _

theorem handleResult_cases (s : State) (w : String) (f : Frame) (d : Dispatch)
    (r : WorkloadExecutionResult) (u t : PySet String) (now : ℚ) :
    Handled cfg s (s.handleResult cfg w f d r u t now) w f d (.result r u t) := by
  unfold State.handleResult
  dsimp only
  split_ifs with hcancelled hgroup
  · obtain ⟨ha, he, hr⟩ := attempts_cancelledResult s w d (State.rejectGroupCheckpoint d r)
    refine .settled .failed ha (fun _ hk => ?_) he nofun (.returned hr)
    rw [hk.1] at hcancelled
    cases hcancelled
  · obtain ⟨hg, hlost⟩ := hgroup
    have hr := wasCheckpointed_rejectGroupCheckpoint (r := r) hg
    split
    · rename_i b hb
      exact .drained _ t rfl hr hlost (by rw [hb]; rfl)
    · obtain ⟨ha, he, hend⟩ := lostGroupResult_cases s w f d _ t now
        (Reply.IsOther (.result r u t) ∧ cfg.maxAttempts ≤ f.attemptsUsed) hr
      exact .settled .lost ha (fun _ _ => rfl) he nofun hend
  · obtain ⟨st, ha, hlost, he, hreturned, hend⟩ := settleResult_cases s w f d
      (State.rejectGroupCheckpoint d r) u false now
      (Reply.IsOther (.result r u t) ∧ cfg.maxAttempts ≤ f.attemptsUsed)
    refine .settled st ha (fun hl hk => ?_) he hreturned hend
    -- a group whose attempt is lost was handled above
    have hsingle : ¬ d.executionGroup.isSome = true := fun hg => hgroup ⟨hg, hl⟩
    obtain ⟨hs, hc⟩ := hk.2.resolve_left hsingle
    have heq : State.rejectGroupCheckpoint d r = r := by
      unfold State.rejectGroupCheckpoint
      rw [if_neg fun h => hsingle h.2]
    rw [heq] at hlost
    exact hlost (.inr hl) hs hc

theorem handleException_cases {s₀ s₁ : State} {st : AttemptStatus} {reply : Reply} {m : String}
    (ha : Settled w d.attemptId s₀.attempts st s₁.attempts) (hw : s₁.workloads = s₀.workloads)
    (he : s₁.drainEvents = s₀.drainEvents) (hst : st ≠ .succeeded)
    (hlost : s₀.isLost d.attemptId = true → reply.KeepsLost s₀ w d → st = .lost) :
    Handled cfg s₀ (s₁.retryOrFail cfg w (f.exhaust d.workerIds) (some .workerUnavailable) m) w f d
      reply := by
  refine .settled st ?_ hlost ((attempts_retryOrFail s₁ w _ _ m).2.trans he)
    (fun h => absurd h hst) ?_
  · rw [(attempts_retryOrFail s₁ w _ _ m).1]
    exact ha
  · refine ending_retryOrFail rfl ?_
    rw [State.stateOf, State.stateOf, hw]
    exact id

theorem handleOtherException_cases (s : State) (w : String) (f : Frame) (d : Dispatch) (m : String)
    (now : ℚ) :
    Handled cfg s (s.handleOtherException cfg w f d m now) w f d (.otherException m) := by
  obtain ⟨st, ha, hst, hlost, hw, he⟩ : ∃ st, Settled w d.attemptId s.attempts st
      ((s.recordFailures cfg d.workerIds now).settleException d m).attempts ∧ st ≠ .succeeded ∧
      (d.executionGroup.isSome = true → st = .lost) ∧
      ((s.recordFailures cfg d.workerIds now).settleException d m).workloads = s.workloads ∧
      ((s.recordFailures cfg d.workerIds now).settleException d m).drainEvents = s.drainEvents := by
    unfold State.settleException
    split_ifs with hg
    · exact ⟨.lost, .lost _ _, by decide, fun _ => rfl, rfl, rfl⟩
    · exact ⟨.failed, .failed _ _ _, by decide, fun h => absurd h hg, rfl, rfl⟩
  unfold State.handleOtherException
  dsimp only
  split_ifs with hretry
  · refine .settled st ha (fun _ => hlost) he (fun h => absurd h hst) ?_
    refine .retried _ (runs_nextAttempt _ w _) rfl (shouldRetry_lt hretry) ?_
    rw [State.nextAttempt, stateOf_setPc, State.stateOf, State.stateOf, hw]
    exact id
  · refine .settled st ha (fun _ => hlost) he (fun h => absurd h hst) ?_
    refine .overran _ (runs_nextAttempt _ w _) rfl ⟨trivial, ?_⟩
    by_contra hlt
    apply hretry
    have hlt' := Nat.lt_of_not_le hlt
    simp [shouldRetry, RETRYABLE_FAILURE_CATEGORIES, Frame.exhaust, hlt']

/-- **What the segment after the answer of a dispatch can do.** -/
theorem handleReply_cases (s : State) (w : String) (f : Frame) (d : Dispatch) (now : ℚ)
    (reply : Reply) : Handled cfg s (s.handleReply cfg w f d now reply) w f d reply := by
  cases reply with
  | result r u t => exact handleResult_cases s w f d r u t now
  | recordLost m =>
    have hattempts : Settled w d.attemptId s.attempts .lost
        (s.attempts.markLost d.attemptId (some m) d.workerIds) := .lost _ _
    exact handleException_cases hattempts rfl rfl (by decide) fun _ _ => rfl
  | submitUnavailable m =>
    have hattempts : Settled w d.attemptId s.attempts .failed
        (s.attempts.markFailed d.attemptId (some .workerUnavailable) (some m)) := .failed _ _ _
    exact handleException_cases hattempts rfl rfl (by decide) fun _ h => absurd h id
  | otherException m => exact handleOtherException_cases s w f d m now

theorem resume_cases {now : ℚ} (h : s.resume cfg w now = some s') :
    ∃ f d reply, s.runs.get? w = some (.dispatch f d) ∧ State.dispatchReply cfg f d = some reply ∧
      s' = s.handleReply cfg w f d now reply ∧ Handled cfg s s' w f d reply := by
  unfold State.resume at h
  split at h
  · rename_i f d hpc
    obtain ⟨reply, hr, rfl⟩ := Option.map_eq_some_iff.1 h
    exact ⟨f, d, reply, hpc, hr, rfl, handleReply_cases s w f d now reply⟩
  · cases h

/-- **What the segment after a group drain can do**: the attempt stays lost. -/
theorem drainResume_cases {now : ℚ} (h : s.drainResume cfg w now = some s') :
    ∃ f d r t, s.runs.get? w = some (.drainWait f d r t) ∧
      s.drainEvents.get? d.attemptId = some true ∧
      (r.wasCheckpointed = false → Settled w d.attemptId s.attempts .lost s'.attempts ∧
        s'.drainEvents = s.drainEvents.erase d.attemptId ∧ Ending cfg s s' w f False) := by
  unfold State.drainResume at h
  split at h
  · rename_i f d r t hpc
    split_ifs at h with hevent
    obtain rfl := Option.some.inj h
    refine ⟨f, d, r, t, hpc, hevent, fun hr => ?_⟩
    obtain ⟨ha, he, hend⟩ := lostGroupResult_cases
      { s with drainEvents := s.drainEvents.erase d.attemptId } w f d r t now False hr
    refine ⟨ha, he, ?_⟩
    cases hend with
    | returned hpc => exact .returned hpc
    | retried f' hpc hused hbudget hlive => exact .retried f' hpc hused hbudget hlive
    | overran f' hpc hused hspent => exact .overran f' hpc hused hspent
  · cases h

end Aidars.Orchestrator
