import Aidars.Orchestrator.Segments

/-!
# What a step does to attempts and runs

A step is a segment of the run of one workload (`Action.segmentOf`), or it belongs to another
coroutine. The segments are described by their case lemmas; this module describes the other steps.
They create no attempt, and an attempt that one of them changes was active and is lost
(`step_attempts`). To a given workload they do one of a few things (`Foreign`): it is submitted,
admitted, failed for a dependency, or cancelled.
-/

namespace Aidars.Orchestrator

open AttemptRegistry (Moves Ledger)

variable {cfg : Config} {s s' : State} {w v x m : String} {reg reg' : AttemptRegistry}

/-! ## Attempts that are lost or settled -/

/-- The attempt is as before, or it was active and is lost. -/
def Loses (reg : AttemptRegistry) (r r' : AttemptRecord) : Prop :=
  r' = r ∨ ((Ledger reg → r.status.isActive = true) ∧ r'.status = .lost)

theorem moves_loseAttempts (h : Moves (Loses reg) reg reg') (ids : List String) (m x : String)
    (hids : Ledger reg → ∀ id ∈ ids, ∀ r, reg.getAttempt id = some r → r.status.isActive = true) :
    Moves (Loses reg) reg (State.loseAttempts reg' ids m x) := by
  unfold State.loseAttempts
  refine h.foldl_update ids (fun _ => ⟨rfl, rfl⟩) fun id hid r r' hr _ => ?_
  exact .inr ⟨fun hl => hids hl id hid r hr, rfl⟩

/-- Losing attempts that were found active. -/
theorem moves_loseRunning (h : Moves (Loses reg) reg reg') {l : List AttemptRecord} (m : String)
    (hl : ∀ a ∈ l, a ∈ reg'.listRunningAttemptsForWorker x) :
    Moves (Loses reg) reg (State.loseAttempts reg' (l.map (·.attemptId)) m x) := by
  refine moves_loseAttempts h _ m x fun hledger id hid r hr => ?_
  obtain ⟨a, ha, rfl⟩ := List.mem_map.1 hid
  obtain ⟨hmem, hocc⟩ := List.mem_filter.1 (hl a ha)
  have hactive : a.status.isActive = true := by
    unfold AttemptRecord.occupies at hocc
    exact (Bool.and_eq_true _ _ ▸ hocc).1
  -- an active record is filed under its own identifier, and was not lost before
  obtain ⟨k, hk⟩ := Dict.mem_values.1 hmem
  obtain ⟨hid', -⟩ := (h.ledger hledger).filed k a hk
  obtain ⟨r', hr', hloses, -⟩ := h.record _ r hr
  have hka : reg'.getAttempt a.attemptId = some a := by rw [hid']; exact hk
  obtain rfl := Option.some.inj (hka.symm.trans hr')
  rcases hloses with rfl | ⟨-, hlost⟩
  · exact hactive
  · rw [hlost] at hactive
    cases hactive

theorem moves_handleWorkerLost (h : Moves (Loses reg) reg s.attempts) (x : String) :
    Moves (Loses reg) reg (s.handleWorkerLost x).attempts :=
  moves_loseRunning h _ fun _ ha => ha

theorem moves_foldl_handleWorkerLost (h : Moves (Loses reg) reg s.attempts) (l : List String) :
    Moves (Loses reg) reg (l.foldl State.handleWorkerLost s).attempts := by
  induction l generalizing s with
  | nil => exact h
  | cons x l ih => exact ih (moves_handleWorkerLost h x)

theorem moves_drainStart (s : State) (x : String) :
    Moves (Loses s.attempts) s.attempts (s.drainStart x).attempts := by
  have hrefl : Moves (Loses s.attempts) s.attempts s.attempts := .refl (fun _ => .inl rfl) _
  unfold State.drainStart
  dsimp only
  split_ifs
  · exact hrefl
  · exact moves_loseRunning hrefl _ fun a ha => List.mem_of_mem_filter ha

/-- The attempt is as before, or it is the one that is settled, or it is another active attempt of
the workload that has been superseded. -/
def Settles (reg : AttemptRegistry) (w id : String) (st : AttemptStatus) (r r' : AttemptRecord) :
    Prop :=
  r' = r ∨ (reg.getAttempt id = some r ∧ r'.status = st) ∨
    ((Ledger reg → r.workloadId = w ∧ r.status.isActive = true) ∧ r'.status = .failed)

theorem Settled.moves {id : String} {st : AttemptStatus} (h : Settled w id reg st reg') :
    Moves (Settles reg w id st) reg reg' := by
  have hrefl : Moves (Settles reg w id st) reg reg := .refl (fun _ => .inl rfl) _
  cases h with
  | failed c m r => exact hrefl.update (fun _ => ⟨rfl, rfl⟩) fun _ _ hr _ => .inr (.inl ⟨hr, rfl⟩)
  | lost m u => exact hrefl.update (fun _ => ⟨rfl, rfl⟩) fun _ _ hr _ => .inr (.inl ⟨hr, rfl⟩)
  | checkpointed r =>
    exact hrefl.update (fun _ => ⟨rfl, rfl⟩) fun _ _ hr _ => .inr (.inl ⟨hr, rfl⟩)
  | succeeded r ids hids =>
    have hsuper : Moves (Settles reg w id .succeeded) reg (State.supersede reg ids) := by
      refine hrefl.foldl_update ids (fun _ => ⟨rfl, rfl⟩) fun id' hid a _ ha _ => ?_
      refine .inr (.inr ⟨fun hledger => ?_, rfl⟩)
      obtain ⟨b, hb, rfl, hactive⟩ := hids id' hid
      -- the listed attempt is the one filed under its identifier
      obtain ⟨k, hk, hkb⟩ := List.mem_filterMap.1 hb
      obtain ⟨c, hc, hcw⟩ := hledger.present w k hk
      obtain rfl := Option.some.inj (hkb.symm.trans hc)
      obtain ⟨hbk, -⟩ := hledger.filed k b hkb
      rw [hbk] at ha
      obtain rfl := Option.some.inj (ha.symm.trans hc)
      exact ⟨hcw, hactive⟩
    exact hsuper.update (fun _ => ⟨rfl, rfl⟩) fun _ _ hr _ => .inr (.inl ⟨hr, rfl⟩)

/-! ## Steps that are not segments of a run -/

/-- The workload whose run the action is a segment of. -/
def Action.segmentOf : Action → Option String
  | .startRun w => some w
  | .place w _ _ _ => some w
  | .callEvent w _ _ => some w
  | .resume w _ => some w
  | .drainResume w _ => some w
  | .finishRun w => some w
  | _ => none

/-- The segments of a run. -/
inductive Segment (w : String) : Action → Prop
  | startRun : Segment w (.startRun w)
  | place (ranking : Ranking) (now : ℚ) (execId : String) :
      Segment w (.place w ranking now execId)
  | callEvent (i : ℕ) (event : State.CallEvent) : Segment w (.callEvent w i event)
  | resume (now : ℚ) : Segment w (.resume w now)
  | drainResume (now : ℚ) : Segment w (.drainResume w now)
  | finishRun : Segment w (.finishRun w)

theorem segment_of_eq {a : Action} {w : String} (hseg : a.segmentOf = some w) : Segment w a := by
  unfold Action.segmentOf at hseg
  split at hseg <;> cases hseg <;> constructor

/-- The coordinator restarts. -/
def Action.isRestart : Action → Bool
  | .restart _ => true
  | _ => false

/-- A clone task records nothing: its name lookup fails. -/
theorem executeSpeculativeAttempt_ok {now : ℚ}
    (h : s.executeSpeculativeAttempt w x now = .ok s') : s' = s := by
  have hname : lookupGlobal "PlacementDecision" = .error ⟨"PlacementDecision"⟩ := by decide
  unfold State.executeSpeculativeAttempt at h
  split at h
  · split_ifs at h
    · exact (Except.ok.inj h).symm
    · rw [hname] at h
      cases h
  · exact (Except.ok.inj h).symm

/-- The coroutines of `s'` are those of `s`, and so are the attempts. -/
structure SameTasks (s s' : State) : Prop where
  attempts : s'.attempts = s.attempts
  runs : s'.runs = s.runs
  processing : s'.processing = s.processing
  cancels : s'.cancels = s.cancels
  drainEvents : s'.drainEvents = s.drainEvents
  drains : s'.drains = s.drains

theorem cloneStep_cases {i : ℕ} {now : ℚ} (h : s.cloneStep i now = some s') :
    SameTasks s s' ∧ ∀ w, s'.outcomeOf w = s.outcomeOf w := by
  unfold State.cloneStep at h
  obtain ⟨⟨w, x⟩, -, rfl⟩ := Option.map_eq_some_iff.1 h
  dsimp only
  split
  · rename_i s₁ hs
    obtain rfl := executeSpeculativeAttempt_ok hs
    exact ⟨⟨rfl, rfl, rfl, rfl, rfl, rfl⟩, fun _ => rfl⟩
  · exact ⟨⟨rfl, rfl, rfl, rfl, rfl, rfl⟩, fun _ => rfl⟩

theorem maybeSpeculativeStealStraggler_cases (s : State) (idle jobId : String) :
    SameTasks s (s.maybeSpeculativeStealStraggler idle jobId) ∧
      ∀ w, (s.maybeSpeculativeStealStraggler idle jobId).outcomeOf w = s.outcomeOf w := by
  unfold State.maybeSpeculativeStealStraggler
  dsimp only
  split_ifs
  · split
    · rename_i v _
      refine ⟨⟨rfl, rfl, rfl, rfl, rfl, rfl⟩, fun w => ?_⟩
      simp only [State.outcomeOf, State.modifyWorkload, Dict.get?_modify]
      split_ifs with hv
      · rw [hv, Option.map_map]
        rfl
      · rfl
    · exact ⟨⟨rfl, rfl, rfl, rfl, rfl, rfl⟩, fun _ => rfl⟩
  · exact ⟨⟨rfl, rfl, rfl, rfl, rfl, rfl⟩, fun _ => rfl⟩

theorem stealStep_cases {i : ℕ} (h : s.stealStep i = some s') :
    SameTasks s s' ∧ ∀ w, s'.outcomeOf w = s.outcomeOf w := by
  unfold State.stealStep at h
  obtain ⟨⟨idle, jobId⟩, -, rfl⟩ := Option.map_eq_some_iff.1 h
  obtain ⟨ht, ho⟩ := maybeSpeculativeStealStraggler_cases
    { s with steals := s.steals.eraseIdx i } idle jobId
  exact ⟨⟨ht.attempts, ht.runs, ht.processing, ht.cancels, ht.drainEvents, ht.drains⟩, ho⟩

/-! ## The admission loop -/

theorem outcomeOf_updateState (s : State) (v w : String) (st : WorkloadState) (m : Option String) :
    (s.updateState v st m).outcomeOf w =
      if w = v then (s.outcomeOf w).map fun o => (st, o.2) else s.outcomeOf w := by
  simp only [State.outcomeOf, State.updateState, State.modifyWorkload, Dict.get?_modify]
  split_ifs with hv
  · rw [hv, Option.map_map, Option.map_map]
    rfl
  · rfl

theorem stateOf_eq (s : State) (w : String) : s.stateOf w = (s.outcomeOf w).map Prod.fst := by
  rw [State.stateOf, State.outcomeOf, Option.map_map]
  rfl

/-- The outcome of a workload that fails for a dependency. -/
def failedOutcome (o : Option (WorkloadState × Option WorkloadExecutionResult)) :
    Option (WorkloadState × Option WorkloadExecutionResult) := o.map fun o => (.failed, o.2)

/-- The dependency check after some turns: only the outcomes of the workloads `done` may have
changed, to failure, and the ready workloads are those of them that have not failed. -/
structure CheckInv (s : State) (done : List String) (acc : State × List String) : Prop where
  tasks : SameTasks s acc.1
  outcome : ∀ v, acc.1.outcomeOf v = s.outcomeOf v ∨
    (v ∈ done ∧ v ∉ acc.2 ∧ acc.1.outcomeOf v = failedOutcome (s.outcomeOf v))
  ready : ∀ v ∈ acc.2, v ∈ done

theorem CheckInv.checkReady {done : List String} {acc : State × List String}
    (h : CheckInv s done acc) (hw : w ∉ done) :
    CheckInv s (done ++ [w]) (State.checkReady acc w) := by
  have hready : ∀ v ∈ acc.2, v ∈ done ++ [w] := fun v hv => List.mem_append_left _ (h.ready v hv)
  have houtcome : ∀ v, acc.1.outcomeOf v = s.outcomeOf v ∨ (v ∈ done ++ [w] ∧ v ∉ acc.2 ∧
      acc.1.outcomeOf v = failedOutcome (s.outcomeOf v)) := by
    intro v
    refine (h.outcome v).imp_right fun ⟨hv, hr⟩ => ⟨List.mem_append_left _ hv, hr⟩
  have hwkept : acc.1.outcomeOf w = s.outcomeOf w := by
    refine (h.outcome w).resolve_right fun hv => hw hv.1
  have hkept : CheckInv s (done ++ [w]) acc :=
    ⟨h.tasks, houtcome, hready⟩
  unfold State.checkReady
  split
  · rename_i r _
    have hcases := dependencyState_cases acc.1 w r.spec.dependsOn
    split
    · -- the workload is ready, and its outcome has not changed
      rename_i s₁ hs
      rw [hs] at hcases
      obtain rfl : s₁ = acc.1 := hcases.resolve_right fun hf => by cases hf.1
      refine ⟨h.tasks, fun v => ?_, fun v hv => ?_⟩
      · rcases houtcome v with hv | ⟨hv, hnot, hf⟩
        · exact .inl hv
        · by_cases hvw : v = w
          · rw [hvw]
            exact .inl hwkept
          · refine .inr ⟨hv, fun hmem => ?_, hf⟩
            rcases List.mem_append.1 hmem with hmem | hmem
            · exact hnot hmem
            · exact hvw (List.mem_singleton.1 hmem)
      · rcases List.mem_append.1 hv with hv | hv
        · exact hready v hv
        · exact List.mem_append_right _ hv
    · rename_i s₁ _ _ hs
      rw [hs] at hcases
      rcases hcases with rfl | ⟨-, m, rfl⟩
      · exact hkept
      · have htasks : SameTasks s (acc.1.updateState w .failed m) :=
          ⟨h.tasks.attempts, h.tasks.runs, h.tasks.processing, h.tasks.cancels,
            h.tasks.drainEvents, h.tasks.drains⟩
        refine ⟨htasks, fun v => ?_, hready⟩
        rw [outcomeOf_updateState]
        split_ifs with hv
        · subst hv
          refine .inr ⟨List.mem_append_right _ List.mem_cons_self, fun hmem => ?_, ?_⟩
          · exact hw (h.ready v hmem)
          · rw [hwkept]
            rfl
        · exact houtcome v
  · exact hkept

theorem CheckInv.foldl {done : List String} {acc : State × List String} (l : List String)
    (h : CheckInv s done acc) (hnodup : (done ++ l).Nodup) :
    CheckInv s (done ++ l) (l.foldl State.checkReady acc) := by
  induction l generalizing done acc with
  | nil => simpa using h
  | cons w l ih =>
    have hw : w ∉ done := fun hmem => by
      have := List.disjoint_of_nodup_append hnodup hmem
      exact this List.mem_cons_self
    have := ih (h.checkReady hw) (by simpa using hnodup)
    simpa using this

theorem foldl_startTask (s : State) (l : List String) :
    (l.foldl State.startTask s).attempts = s.attempts ∧
      (l.foldl State.startTask s).workloads = s.workloads ∧
      (l.foldl State.startTask s).cancels = s.cancels ∧
      (l.foldl State.startTask s).drainEvents = s.drainEvents ∧
      (l.foldl State.startTask s).drains = s.drains ∧
      ∀ v, (l.foldl State.startTask s).runs.get? v =
          (if v ∈ l then some .start else s.runs.get? v) ∧
        (v ∈ (l.foldl State.startTask s).processing ↔ v ∈ l ∨ v ∈ s.processing) := by
  induction l generalizing s with
  | nil => exact ⟨rfl, rfl, rfl, rfl, rfl, fun v => ⟨by simp, by simp⟩⟩
  | cons w l ih =>
    obtain ⟨ha, hw, hc, he, hd, hv⟩ := ih (s.startTask w)
    refine ⟨ha, hw, hc, he, hd, fun v => ⟨?_, ?_⟩⟩
    · rw [List.foldl_cons, (hv v).1]
      by_cases hvl : v ∈ l
      · simp [hvl]
      · simp [hvl, State.startTask]
    · rw [List.foldl_cons, (hv v).2]
      simp only [State.startTask, PySet.mem_insert, List.mem_cons]
      tauto

/-- The run of the workload is where it was. -/
structure SameRun (w : String) (s s' : State) : Prop where
  runs : s'.runs.get? w = s.runs.get? w
  processing : w ∈ s'.processing ↔ w ∈ s.processing

/-- The workload waits for admission. -/
def Pending (s : State) (w : String) : Prop := s.stateOf w = some .submitted ∧ w ∉ s.processing

/-- **What a pass of the admission loop can do**: a workload that waits is started, or fails for a
dependency. -/
theorem admissionPass_cases {order : List String} (h : s.admissionPass cfg order = some s') :
    s'.attempts = s.attempts ∧ s'.cancels = s.cancels ∧ s'.drainEvents = s.drainEvents ∧
      s'.drains = s.drains ∧ ∀ v, (SameRun v s s' ∧ s'.outcomeOf v = s.outcomeOf v) ∨
        (Pending s v ∧ SameRun v s s' ∧ s'.outcomeOf v = failedOutcome (s.outcomeOf v)) ∨
        (Pending s v ∧ v ∈ s'.processing ∧ s'.runs.get? v = some .start ∧
          s'.outcomeOf v = s.outcomeOf v) := by
  have hcheck : CheckInv s s.pendingIds (s.pendingIds.foldl State.checkReady (s, [])) := by
    have hinit : CheckInv s [] (s, []) :=
      ⟨⟨rfl, rfl, rfl, rfl, rfl, rfl⟩, fun _ => .inl rfl, fun _ hv => hv⟩
    exact hinit.foldl s.pendingIds (s.queued.nodup.filter _)
  have hpending : ∀ v ∈ s.pendingIds, Pending s v := by
    intro v hv
    obtain ⟨-, hp⟩ := List.mem_filter.1 hv
    rw [Bool.and_eq_true, decide_eq_true_iff, decide_eq_true_iff] at hp
    exact hp
  unfold State.admissionPass at h
  generalize s.pendingIds.foldl State.checkReady (s, []) = acc at h hcheck
  obtain ⟨s₁, ready⟩ := acc
  dsimp only at h
  split_ifs at h with hperm
  have hready : ∀ v ∈ order.take (max 1 cfg.maxDispatchTasks - s₁.processing.toList.length),
      v ∈ ready := fun v hv => (List.isPerm_iff.1 hperm).mem_iff.1 (List.mem_of_mem_take hv)
  generalize order.take (max 1 cfg.maxDispatchTasks - s₁.processing.toList.length) = started
    at h hready
  obtain ⟨ha, hw, hc, he, hd, hv⟩ := foldl_startTask { s₁ with
    queued := PySet.ofList (s₁.queued.toList.filter fun w => s₁.stateOf w =
      some .submitted) } started
  rw [Option.some.inj h] at ha hw hc he hd hv
  refine ⟨ha.trans hcheck.tasks.attempts, hc.trans hcheck.tasks.cancels,
    he.trans hcheck.tasks.drainEvents, hd.trans hcheck.tasks.drains, fun v => ?_⟩
  obtain ⟨hruns, hproc⟩ := hv v
  have hout : s'.outcomeOf v = s₁.outcomeOf v := by
    rw [State.outcomeOf, State.outcomeOf, hw]
  rw [hcheck.tasks.runs] at hruns
  rw [hcheck.tasks.processing] at hproc
  by_cases hmem : v ∈ started
  · -- a workload that is started is ready, so it has not failed
    rw [if_pos hmem] at hruns
    have hkept := (hcheck.outcome v).resolve_right fun hf => hf.2.1 (hready v hmem)
    exact .inr (.inr ⟨hpending v (hcheck.ready v (hready v hmem)), hproc.2 (.inl hmem), hruns,
      hout.trans hkept⟩)
  · rw [if_neg hmem] at hruns
    have hrun : SameRun v s s' := ⟨hruns, hproc.trans (or_iff_right hmem)⟩
    rcases hcheck.outcome v with hkept | ⟨hdone, -, hfailed⟩
    · exact .inl ⟨hrun, hout.trans hkept⟩
    · exact .inr (.inl ⟨hpending v hdone, hrun, hout.trans hfailed⟩)

theorem foldl_checkReady_writes (l : List String) (acc : State × List String) :
    ∃ ws, (l.foldl State.checkReady acc).1 = { acc.1 with workloads := ws } := by
  induction l generalizing acc with
  | nil => exact ⟨_, rfl⟩
  | cons w l ih =>
    obtain ⟨ws, hws⟩ : ∃ ws, (State.checkReady acc w).1 = { acc.1 with workloads := ws } := by
      unfold State.checkReady
      split
      · rename_i r _
        have hdep := dependencyState_cases acc.1 w r.spec.dependsOn
        split <;> rename_i hs <;> rw [hs] at hdep <;> rcases hdep with hdep | ⟨-, m, hdep⟩ <;>
          exact ⟨_, hdep⟩
      · exact ⟨_, rfl⟩
    obtain ⟨ws', hws'⟩ := ih (State.checkReady acc w)
    exact ⟨ws', by rw [List.foldl_cons, hws', hws]⟩

theorem admissionPass_writes {order : List String} (h : s.admissionPass cfg order = some s') :
    ∃ ws q p r, s' = { s with workloads := ws, queued := q, processing := p, runs := r } := by
  have hstart : ∀ (l : List String) (s₀ : State), ∃ q p r, l.foldl State.startTask s₀ =
      { s₀ with queued := q, processing := p, runs := r } := by
    intro l
    induction l with
    | nil => exact fun s₀ => ⟨_, _, _, rfl⟩
    | cons w l ih => exact fun s₀ => ih (s₀.startTask w)
  obtain ⟨ws, hws⟩ := foldl_checkReady_writes s.pendingIds (s, [])
  unfold State.admissionPass at h
  generalize s.pendingIds.foldl State.checkReady (s, []) = acc at h hws
  obtain ⟨s₁, ready⟩ := acc
  obtain rfl : s₁ = _ := hws
  dsimp only at h
  split_ifs at h
  obtain ⟨q, p, r, heq⟩ := hstart _ _
  exact ⟨ws, q, p, r, (Option.some.inj h).symm.trans heq⟩

/-! ## Submission and cancellation -/

theorem enqueueWorkload_cases (s : State) (w : String) :
    SameTasks s (s.enqueueWorkload w) ∧ (s.enqueueWorkload w).workloads = s.workloads := by
  unfold State.enqueueWorkload
  split_ifs
  · exact ⟨⟨rfl, rfl, rfl, rfl, rfl, rfl⟩, rfl⟩
  · split <;> exact ⟨⟨rfl, rfl, rfl, rfl, rfl, rfl⟩, rfl⟩

theorem submitWorkload_cases (s : State) (spec : WorkloadSpec) :
    SameTasks s (s.submitWorkload cfg spec) ∧ ∀ w,
      (s.submitWorkload cfg spec).outcomeOf w = s.outcomeOf w ∨
        (s.outcomeOf w = none ∧ (s.submitWorkload cfg spec).outcomeOf w =
          some (.submitted, none)) := by
  unfold State.submitWorkload State.addWorkload
  cases hrecord : s.workloads.get? spec.workloadId with
  | some existing =>
    dsimp only
    split_ifs
    · obtain ⟨ht, hw⟩ := enqueueWorkload_cases s spec.workloadId
      refine ⟨ht, fun w => .inl ?_⟩
      dsimp only
      rw [State.outcomeOf, State.outcomeOf, hw]
    · exact ⟨⟨rfl, rfl, rfl, rfl, rfl, rfl⟩, fun _ => .inl rfl⟩
  | none =>
    dsimp only
    obtain ⟨ht, hw⟩ := enqueueWorkload_cases
      { s with workloads := s.workloads.set spec.workloadId { spec } } spec.workloadId
    refine ⟨⟨ht.attempts, ht.runs, ht.processing, ht.cancels, ht.drainEvents, ht.drains⟩,
      fun w => ?_⟩
    rw [State.outcomeOf, State.outcomeOf, hw, Dict.get?_set]
    split_ifs with hw
    · rw [hw, hrecord]
      exact .inr ⟨rfl, rfl⟩
    · exact .inl rfl

theorem createJob_cases (s : State) (job : JobRecord) :
    SameTasks s (s.createJob job) ∧ (s.createJob job).workloads = s.workloads := by
  unfold State.createJob
  split <;> exact ⟨⟨rfl, rfl, rfl, rfl, rfl, rfl⟩, rfl⟩

theorem outcomeOf_finishCancel (s : State) (v w : String) : (s.finishCancel v).outcomeOf w =
    if w = v then (s.outcomeOf w).map fun o => (.cancelled, o.2) else s.outcomeOf w :=
  outcomeOf_updateState s v w .cancelled _

/-- **What a cancellation can do**: a workload that is not terminal is cancelled, or its
cancellation is requested and waits. -/
theorem cancelStart_cases (s : State) (v : String) : s.cancelStart v = s ∨
    ∃ st x, s.stateOf v = some x ∧ x.isTerminal = false ∧ st.isCancelled = true ∧
      (s.cancelStart v).attempts = s.attempts ∧ (s.cancelStart v).runs = s.runs ∧
      (s.cancelStart v).processing = s.processing ∧
      (s.cancelStart v).drainEvents = s.drainEvents ∧ (s.cancelStart v).drains = s.drains ∧
      (∀ w ∈ (s.cancelStart v).cancels, w ∈ s.cancels ∨ w = v) ∧
      ∀ w, (s.cancelStart v).outcomeOf w =
        if w = v then (s.outcomeOf w).map fun o => (st, o.2) else s.outcomeOf w := by
  unfold State.cancelStart
  split
  · exact .inl rfl
  · rename_i x hx
    dsimp only
    split_ifs with hterminal
    · exact .inl rfl
    · refine .inr ⟨.cancellationRequested, x, hx, by simpa using hterminal, rfl, rfl, rfl, rfl, rfl,
        rfl, fun w hw => ?_, fun w => outcomeOf_updateState s v w .cancellationRequested _⟩
      rcases List.mem_append.1 hw with hw | hw
      · exact .inl hw
      · exact .inr (List.mem_singleton.1 hw)
    · refine .inr ⟨.cancelled, x, hx, by simpa using hterminal, rfl, rfl, rfl, rfl, rfl, rfl,
        fun w hw => .inl hw, fun w => ?_⟩
      rw [outcomeOf_finishCancel, outcomeOf_updateState]
      split_ifs
      · rw [Option.map_map]
        rfl
      · rfl

theorem cancelFinish_cases {v : String} (h : s.cancelFinish v = some s') :
    v ∈ s.cancels ∧ s'.attempts = s.attempts ∧ s'.runs = s.runs ∧ s'.processing = s.processing ∧
      s'.drainEvents = s.drainEvents ∧ s'.drains = s.drains ∧
      (∀ w ∈ s'.cancels, w ∈ s.cancels) ∧ ∀ w, s'.outcomeOf w =
        if w = v then (s.outcomeOf w).map fun o => (.cancelled, o.2) else s.outcomeOf w := by
  unfold State.cancelFinish at h
  split_ifs at h with hv
  obtain rfl := Option.some.inj h
  exact ⟨hv, rfl, rfl, rfl, rfl, rfl, fun w hw => List.mem_of_mem_erase hw,
    outcomeOf_finishCancel _ v⟩

/-! ## Loss and drain -/

theorem foldl_handleWorkerLost (s : State) (l : List String) :
    (l.foldl State.handleWorkerLost s).workloads = s.workloads ∧
      (l.foldl State.handleWorkerLost s).runs = s.runs ∧
      (l.foldl State.handleWorkerLost s).processing = s.processing ∧
      (l.foldl State.handleWorkerLost s).cancels = s.cancels ∧
      (l.foldl State.handleWorkerLost s).drainEvents = s.drainEvents ∧
      (l.foldl State.handleWorkerLost s).drains = s.drains := by
  induction l generalizing s with
  | nil => exact ⟨rfl, rfl, rfl, rfl, rfl, rfl⟩
  | cons x l ih => exact ih (s.handleWorkerLost x)

theorem drainStart_frame (s : State) (x : String) :
    (s.drainStart x).workloads = s.workloads ∧ (s.drainStart x).runs = s.runs ∧
      (s.drainStart x).processing = s.processing ∧ (s.drainStart x).cancels = s.cancels := by
  unfold State.drainStart
  dsimp only
  split_ifs <;> exact ⟨rfl, rfl, rfl, rfl⟩

/-! ## All steps -/

/-- A segment of a run leaves the other workloads alone. -/
theorem segment_frame {a : Action} (h : step cfg s a = some s') (ha : a.segmentOf = some w) :
    OwnFrame w s s' := by
  cases a with
  | startRun v => obtain rfl := Option.some.inj ha; exact startRun_frame h
  | place v ranking now execId => obtain rfl := Option.some.inj ha; exact place_frame h
  | callEvent v i event => obtain rfl := Option.some.inj ha; exact advanceCall_frame h
  | resume v now => obtain rfl := Option.some.inj ha; exact resume_frame h
  | drainResume v now => obtain rfl := Option.some.inj ha; exact drainResume_frame h
  | finishRun v => obtain rfl := Option.some.inj ha; exact finishRun_frame h
  | _ => cases ha

/-- What a step that is not a segment of the run of `w` does to `w`. -/
inductive Foreign (w : String) (s : State) (a : Action) (s' : State) : Prop
  | kept (hrun : SameRun w s s') (hout : s'.outcomeOf w = s.outcomeOf w)
  | submitted (hrun : SameRun w s s') (hnew : s.outcomeOf w = none)
      (hout : s'.outcomeOf w = some (.submitted, none))
  | admitted (hpending : Pending s w) (hproc : w ∈ s'.processing)
      (hpc : s'.runs.get? w = some .start) (hout : s'.outcomeOf w = s.outcomeOf w)
  | blocked (hpending : Pending s w) (hrun : SameRun w s s')
      (hout : s'.outcomeOf w = failedOutcome (s.outcomeOf w))
  | cancelled (st : WorkloadState) (hst : st.isCancelled = true) (hrun : SameRun w s s')
      (hfrom : (∃ x, s.stateOf w = some x ∧ x.isTerminal = false) ∨
        (st = .cancelled ∧ w ∈ s.cancels ∧ a = .cancelFinish w))
      (hout : s'.outcomeOf w = (s.outcomeOf w).map fun o => (st, o.2))

theorem Foreign.of_eq {a : Action} (hr : s'.runs = s.runs) (hp : s'.processing = s.processing)
    (ho : s'.outcomeOf w = s.outcomeOf w) : Foreign w s a s' :=
  .kept ⟨by rw [hr], by rw [hp]⟩ ho

theorem Foreign.of_workloads {a : Action} (hr : s'.runs = s.runs)
    (hp : s'.processing = s.processing) (hw : s'.workloads = s.workloads) : Foreign w s a s' :=
  .of_eq hr hp (by rw [State.outcomeOf, State.outcomeOf, hw])

/-- **What a step can do to a workload of which it is no segment.** -/
theorem step_foreign {a : Action} (h : step cfg s a = some s') (ha : a.segmentOf ≠ some w)
    (hrestart : a.isRestart = false) : Foreign w s a s' := by
  cases hseg : a.segmentOf with
  | some v =>
    have hne : w ≠ v := fun he => ha (he ▸ hseg)
    have hf := segment_frame h hseg
    exact .kept ⟨hf.runs w hne, hf.processing w hne⟩ (hf.outcome w hne)
  | none =>
    cases a with
    | submitWorkload spec =>
      obtain rfl := Option.some.inj h
      obtain ⟨ht, ho⟩ := submitWorkload_cases s spec
      have hrun :
        SameRun w s (s.submitWorkload cfg spec) := ⟨by rw [ht.runs], by rw [ht.processing]⟩
      rcases ho w with ho | ⟨hn, ho⟩
      · exact .kept hrun ho
      · exact .submitted hrun hn ho
    | createJob job =>
      obtain rfl := Option.some.inj h
      obtain ⟨ht, hw⟩ := createJob_cases s job
      exact .of_workloads ht.runs ht.processing hw
    | admissionPass order =>
      obtain ⟨-, -, -, -, hv⟩ := admissionPass_cases h
      rcases hv w with ⟨hrun, ho⟩ | ⟨hp, hrun, ho⟩ | ⟨hp, hproc, hpc, ho⟩
      · exact .kept hrun ho
      · exact .blocked hp hrun ho
      · exact .admitted hp hproc hpc ho
    | admissionTimeout =>
      obtain rfl := Option.some.inj h
      exact .of_workloads rfl rfl rfl
    | cancelStart v =>
      obtain rfl := Option.some.inj h
      rcases cancelStart_cases s v with he | ⟨st, x, hx, hxt, hst, -, hr, hp, -, -, -, ho⟩
      · rw [he]
        exact .of_workloads rfl rfl rfl
      · have hrun : SameRun w s (s.cancelStart v) := ⟨by rw [hr], by rw [hp]⟩
        have how := ho w
        split_ifs at how with hw
        · rw [← hw] at hx
          exact .cancelled st hst hrun (.inl ⟨x, hx, hxt⟩) how
        · exact .kept hrun how
    | cancelFinish v =>
      obtain ⟨hv, -, hr, hp, -, -, -, ho⟩ := cancelFinish_cases h
      have hrun : SameRun w s s' := ⟨by rw [hr], by rw [hp]⟩
      have how := ho w
      split_ifs at how with hw
      · rw [← hw] at hv
        exact .cancelled .cancelled rfl hrun (.inr ⟨rfl, hv, by rw [hw]⟩) how
      · exact .kept hrun how
    | workerLost x =>
      obtain rfl := Option.some.inj h
      exact .of_workloads rfl rfl rfl
    | evictionPass now =>
      obtain rfl := Option.some.inj h
      obtain ⟨hw, hr, hp, -⟩ := foldl_handleWorkerLost
        { s with registry := (s.registry.evictExpiredWorkers cfg.registry none now).1 }
        (s.registry.evictExpiredWorkers cfg.registry none now).2
      exact .of_workloads hr hp hw
    | drainStart x =>
      obtain rfl := Option.some.inj h
      obtain ⟨hw, hr, hp, -⟩ := drainStart_frame s x
      exact .of_workloads hr hp hw
    | drainFinish i =>
      obtain ⟨ids, -, rfl⟩ := Option.map_eq_some_iff.1 h
      exact .of_workloads rfl rfl rfl
    | registryOp op =>
      obtain rfl := Option.some.inj h
      exact .of_workloads rfl rfl rfl
    | steal i =>
      obtain ⟨ht, ho⟩ := stealStep_cases h
      exact .of_eq ht.runs ht.processing (ho w)
    | clone i now =>
      obtain ⟨ht, ho⟩ := cloneStep_cases h
      exact .of_eq ht.runs ht.processing (ho w)
    | restart now => cases hrestart
    | _ => cases hseg

theorem outside_attempts {a : Action} (h : step cfg s a = some s') (ha : a.segmentOf = none)
    (hrestart : a.isRestart = false) : s'.attempts = s.attempts ∨ (∃ x, a = .workerLost x) ∨
      (∃ now, a = .evictionPass now) ∨ ∃ x, a = .drainStart x := by
  cases a with
  | submitWorkload spec =>
    obtain rfl := Option.some.inj h
    exact .inl (submitWorkload_cases s spec).1.attempts
  | createJob job =>
    obtain rfl := Option.some.inj h
    exact .inl (createJob_cases s job).1.attempts
  | admissionPass order => exact .inl (admissionPass_cases h).1
  | admissionTimeout =>
    obtain rfl := Option.some.inj h
    exact .inl rfl
  | cancelStart v =>
    obtain rfl := Option.some.inj h
    rcases cancelStart_cases s v with he | ⟨st, x, -, -, -, hattempts, -⟩
    · exact .inl (by rw [he])
    · exact .inl hattempts
  | cancelFinish v => exact .inl (cancelFinish_cases h).2.1
  | workerLost x => exact .inr (.inl ⟨x, rfl⟩)
  | evictionPass now => exact .inr (.inr (.inl ⟨now, rfl⟩))
  | drainStart x => exact .inr (.inr (.inr ⟨x, rfl⟩))
  | drainFinish i =>
    obtain ⟨ids, -, rfl⟩ := Option.map_eq_some_iff.1 h
    exact .inl rfl
  | registryOp op =>
    obtain rfl := Option.some.inj h
    exact .inl rfl
  | steal i => exact .inl (stealStep_cases h).1.attempts
  | clone i now => exact .inl (cloneStep_cases h).1.attempts
  | restart now => cases hrestart
  | _ => cases ha

/-- **What a step that is no segment can do to the attempts**: active ones are lost. -/
theorem step_attempts {a : Action} (h : step cfg s a = some s') (ha : a.segmentOf = none)
    (hrestart : a.isRestart = false) : Moves (Loses s.attempts) s.attempts s'.attempts := by
  have hrefl : Moves (Loses s.attempts) s.attempts s.attempts := .refl (fun _ => .inl rfl) _
  rcases outside_attempts h ha hrestart with he | ⟨x, rfl⟩ | ⟨now, rfl⟩ | ⟨x, rfl⟩
  · rwa [he]
  · obtain rfl := Option.some.inj h
    exact moves_handleWorkerLost hrefl x
  · obtain rfl := Option.some.inj h
    exact moves_foldl_handleWorkerLost (by exact hrefl) _
  · obtain rfl := Option.some.inj h
    exact moves_drainStart s x

/-- A cancellation that waits has waited before, or has just been requested. -/
theorem step_cancels {a : Action} (h : step cfg s a = some s') (hw : w ∈ s'.cancels) :
    w ∈ s.cancels ∨ s'.isCancelled w = true := by
  cases hseg : a.segmentOf with
  | some v => exact .inl ((segment_frame h hseg).cancels ▸ hw)
  | none =>
    have hkept : s'.cancels = s.cancels → w ∈ s.cancels ∨ s'.isCancelled w = true :=
      fun he => .inl (he ▸ hw)
    cases a with
    | submitWorkload spec =>
      obtain rfl := Option.some.inj h
      exact hkept (submitWorkload_cases s spec).1.cancels
    | createJob job =>
      obtain rfl := Option.some.inj h
      exact hkept (createJob_cases s job).1.cancels
    | admissionPass order => exact hkept (admissionPass_cases h).2.1
    | admissionTimeout =>
      obtain rfl := Option.some.inj h
      exact hkept rfl
    | cancelStart v =>
      obtain rfl := Option.some.inj h
      rcases cancelStart_cases s v with he | ⟨st, x, hx, -, hst, -, -, -, -, -, hc, ho⟩
      · exact hkept (by rw [he])
      · refine (hc w hw).imp_right ?_
        rintro rfl
        rw [stateOf_eq] at hx
        obtain ⟨o, ho', -⟩ := Option.map_eq_some_iff.1 hx
        rw [State.isCancelled, stateOf_eq, ho w, if_pos rfl, ho']
        exact hst
    | cancelFinish v => exact .inl ((cancelFinish_cases h).2.2.2.2.2.2.1 w hw)
    | workerLost x =>
      obtain rfl := Option.some.inj h
      exact hkept rfl
    | evictionPass now =>
      obtain rfl := Option.some.inj h
      exact hkept (foldl_handleWorkerLost _ _).2.2.2.1
    | drainStart x =>
      obtain rfl := Option.some.inj h
      exact hkept (drainStart_frame s x).2.2.2
    | drainFinish i =>
      obtain ⟨ids, -, rfl⟩ := Option.map_eq_some_iff.1 h
      exact hkept rfl
    | registryOp op =>
      obtain rfl := Option.some.inj h
      exact hkept rfl
    | steal i => exact hkept (stealStep_cases h).1.cancels
    | clone i now => exact hkept (cloneStep_cases h).1.cancels
    | restart now =>
      obtain rfl := Option.some.inj h
      cases hw
    | _ => cases hseg

/-! ## Answers, and the results that wait for a drain -/

/-- The frame of a run. -/
def State.frameOf (s : State) (w : String) : Option Frame :=
  match s.runs.get? w with
  | some (.lockWait f) | some (.dispatch f _) | some (.drainWait f _ _ _) => some f
  | _ => none

/-- The dispatch that a run waits for. -/
def State.dispatchOf (s : State) (w : String) : Option Dispatch :=
  match s.runs.get? w with
  | some (.dispatch _ d) => some d
  | _ => none

/-- The answer that a run is about to handle. -/
def State.replyOf (cfg : Config) (s : State) (w : String) : Option Reply :=
  match s.runs.get? w with
  | some (.dispatch f d) => State.dispatchReply cfg f d
  | _ => none

/-- A result that waits for a drain is no checkpoint. -/
def DrainsPlain (s : State) : Prop :=
  ∀ w f d r t, s.runs.get? w = some (.drainWait f d r t) → r.wasCheckpointed = false

theorem returned_ne_drainWait {f : Frame} {d : Dispatch} {r : WorkloadExecutionResult}
    {t : PySet String} (h : Returned w s) : s.runs.get? w ≠ some (.drainWait f d r t) := by
  intro hpc
  rcases h with h | h <;> rw [hpc] at h <;> cases h

theorem ending_ne_drainWait {s₀ : State} {f₀ f : Frame} {d : Dispatch} {spent : Prop}
    {r : WorkloadExecutionResult} {t : PySet String} (h : Ending cfg s₀ s w f₀ spent) :
    s.runs.get? w ≠ some (.drainWait f d r t) := by
  intro hpc
  cases h with
  | returned h => exact returned_ne_drainWait h hpc
  | retried f' h => rw [hpc] at h; cases h
  | overran f' h => rw [hpc] at h; cases h

theorem advanceCall_cases {i : ℕ} {event : State.CallEvent}
    (h : s.advanceCall w i event = some s') :
    ∃ f d, ∃ c : Call, ∃ phase, s.runs.get? w = some (.dispatch f d) ∧
      s' = s.setPc w (.dispatch f { d with calls := d.calls.set i { c with phase } }) := by
  unfold State.advanceCall at h
  split at h
  · rename_i f d hpc
    split at h
    · rename_i c _
      obtain ⟨phase, -, rfl⟩ := Option.map_eq_some_iff.1 h
      exact ⟨f, d, c, phase, hpc, rfl⟩
    · cases h
  · cases h

theorem finishRun_cases (h : s.finishRun w = some s') :
    s.runs.get? w = some .finishing ∧ s'.runs.get? w = none ∧ s'.workloads = s.workloads ∧
      s'.attempts = s.attempts ∧ s'.drainEvents = s.drainEvents := by
  unfold State.finishRun at h
  split at h
  · rename_i hpc
    obtain rfl := Option.some.inj h
    exact ⟨hpc, by simp, rfl, rfl, rfl⟩
  · cases h

/-- A segment is taken by a run. -/
theorem segment_runs {a : Action} (h : step cfg s a = some s') (hseg : a.segmentOf = some w) :
    s.runs.get? w ≠ none := by
  rw [Option.ne_none_iff_exists']
  cases segment_of_eq hseg with
  | startRun =>
    exact ⟨_, (startRun_cases h).1⟩
  | place ranking now execId =>
    obtain ⟨f₀, hf₀, -⟩ := place_cases h
    exact ⟨_, hf₀⟩
  | callEvent i event =>
    obtain ⟨f, d, c, phase, hd, -⟩ := advanceCall_cases h
    exact ⟨_, hd⟩
  | resume now =>
    obtain ⟨f, d, reply, hd, -⟩ := resume_cases h
    exact ⟨_, hd⟩
  | drainResume now =>
    obtain ⟨f, d, r, t, hd, -⟩ := drainResume_cases h
    exact ⟨_, hd⟩
  | finishRun =>
    exact ⟨_, (finishRun_cases h).1⟩

theorem restart_of_step {a : Action} (hrestart : a.isRestart = true)
    (h : step cfg s a = some s') : ∃ now, a = .restart now ∧ s' = s.restart cfg now := by
  cases a with
  | restart now => exact ⟨now, rfl, (Option.some.inj h).symm⟩
  | _ => cases hrestart

theorem step_drainsPlain {a : Action} (hs : DrainsPlain s) (h : step cfg s a = some s') :
    DrainsPlain s' := by
  intro w f d r t hpc
  by_cases hrestart : a.isRestart = true
  · obtain ⟨now, rfl, rfl⟩ := restart_of_step hrestart h
    cases hpc
  by_cases hseg : a.segmentOf = some w
  · cases segment_of_eq hseg with
    | startRun =>
      obtain ⟨-, -, -, -, hret | ⟨f', hlock, -⟩⟩ := startRun_cases h
      · exact absurd hpc (returned_ne_drainWait hret)
      · rw [hpc] at hlock
        cases hlock
    | place ranking now execId =>
      obtain ⟨f₀, -, -, ⟨-, hret⟩ | ⟨f', p, rest, -, -, hl⟩⟩ := place_cases h
      · exact absurd hpc (returned_ne_drainWait hret)
      · cases hl with
        | dispatched d' hd => rw [hpc] at hd; cases hd
        | vanished m u ha hend => exact absurd hpc (ending_ne_drainWait hend)
    | callEvent i event =>
      obtain ⟨f', d', c, phase, -, rfl⟩ := advanceCall_cases h
      simp [State.setPc] at hpc
    | resume now =>
      obtain ⟨f', d', reply, -, -, -, hhandled⟩ := resume_cases h
      cases hhandled with
      | drained r' t' heq hr =>
        rw [heq] at hpc
        simp only [State.setPc, Dict.get?_set, if_true] at hpc
        cases hpc
        exact hr
      | settled st ha hlost he hret hend => exact absurd hpc (ending_ne_drainWait hend)
    | drainResume now =>
      obtain ⟨f', d', r', t', hpc', -, hcases⟩ := drainResume_cases h
      obtain ⟨-, -, hend⟩ := hcases (hs w f' d' r' t' hpc')
      exact absurd hpc (ending_ne_drainWait hend)
    | finishRun =>
      rw [(finishRun_cases h).2.1] at hpc
      cases hpc
  · have hkept : s'.runs.get? w = s.runs.get? w → r.wasCheckpointed = false := by
      intro he
      exact hs w f d r t (he ▸ hpc)
    cases step_foreign h hseg (by simpa using hrestart) with
    | kept hrun => exact hkept hrun.runs
    | submitted hrun => exact hkept hrun.runs
    | admitted hp hproc hstart =>
      rw [hpc] at hstart
      cases hstart
    | blocked hp hrun => exact hkept hrun.runs
    | cancelled st hst hrun => exact hkept hrun.runs

/-- In every run of the coordinator, the results that wait for a drain are no checkpoints. -/
theorem drainsPlain_run {as : List Action} (h : runSteps cfg {} as = some s) : DrainsPlain s := by
  have hinit : DrainsPlain {} := by
    intro w f d r t hpc
    cases hpc
  exact runFrom_invariant (fun _ _ _ hi => step_drainsPlain hi) hinit h

/-- Every run is that of a workload which is being processed. -/
def RunsProcessing (s : State) : Prop := ∀ w, s.runs.get? w ≠ none → w ∈ s.processing

theorem step_runsProcessing {a : Action} (hs : RunsProcessing s) (h : step cfg s a = some s') :
    RunsProcessing s' := by
  intro w hw
  cases hrestart : a.isRestart with
  | true =>
    obtain ⟨now, rfl, rfl⟩ := restart_of_step hrestart h
    exact absurd rfl hw
  | false =>
    by_cases hseg : a.segmentOf = some w
    · have hframe := segment_frame h hseg
      exact (hframe.own.resolve_left hw).2 (hs w (segment_runs h hseg))
    · have hkept : SameRun w s s' → w ∈ s'.processing := by
        intro hrun
        rw [hrun.runs] at hw
        exact hrun.processing.2 (hs w hw)
      cases step_foreign h hseg hrestart with
      | kept hrun => exact hkept hrun
      | submitted hrun => exact hkept hrun
      | admitted hp hproc => exact hproc
      | blocked hp hrun => exact hkept hrun
      | cancelled st hst hrun => exact hkept hrun

/-! ## Created attempts -/

theorem idsOf_assignNew (reg : AttemptRegistry) (v w : String) (p : PlacementDecision)
    (g : Option ExecutionGroup) : (assignNew reg v p g).idsOf w =
      if w = v then reg.idsOf v ++ [reg.nextId v] else reg.idsOf w := by
  unfold assignNew AttemptRegistry.markAssigned
  rw [AttemptRegistry.idsOf_update, AttemptRegistry.idsOf_createAttempt]

theorem idsOf_launched {f : Frame} {p : PlacementDecision} {g : Option ExecutionGroup}
    (hl : Launched cfg s s' v f p g) (w : String) : s'.attempts.idsOf w =
      if w = v then s.attempts.idsOf v ++ [s.attempts.nextId v] else s.attempts.idsOf w := by
  rw [← idsOf_assignNew s.attempts v w p g]
  cases hl with
  | dispatched d hpc hid ha => rw [ha]; rfl
  | vanished m' u' ha => rw [ha]; rfl

/-- What a segment of a run does to the attempts: nothing, it launches one, or it settles the one of
its dispatch. -/
inductive SegmentAttempts (cfg : Config) (s : State) (a : Action) (s' : State) (v : String) : Prop
  | same (hattempts : s'.attempts = s.attempts)
  | launched (ranking : Ranking) (now : ℚ) (execId : String) (f₀ f : Frame) (p : PlacementDecision)
      (rest : List PlacementDecision) (ha : a = .place v ranking now execId)
      (hchoose : (s.promoteSpare f₀).1.choose cfg v f ranking now = some (p :: rest))
      (hl : Launched cfg (s.promoteSpare f₀).1 s' v f p (State.newGroup f execId (p :: rest)))
  | settled (f : Frame) (d : Dispatch) (st : AttemptStatus)
      (hat : s.runs.get? v = some (.dispatch f d) ∨ ∃ r t, s.runs.get? v =
        some (.drainWait f d r t))
      (hsettled : Settled v d.attemptId s.attempts st s'.attempts)

/-- **What a segment of a run does to the attempts.** -/
theorem segment_attempts {a : Action} (hs : DrainsPlain s) (hseg : a.segmentOf = some v)
    (h : step cfg s a = some s') : SegmentAttempts cfg s a s' v := by
  cases segment_of_eq hseg with
  | startRun => exact .same (startRun_cases h).2.1
  | place ranking now execId =>
    obtain ⟨f₀, -, -, ⟨ha, -⟩ | ⟨f, p, rest, -, hchoose, hl⟩⟩ := place_cases h
    · exact .same ha
    · exact .launched ranking now execId f₀ f p rest rfl hchoose hl
  | callEvent i event =>
    obtain ⟨f, d, c, phase, -, rfl⟩ := advanceCall_cases h
    exact .same rfl
  | resume now =>
    obtain ⟨f, d, reply, hpc, -, -, hhandled⟩ := resume_cases h
    cases hhandled with
    | drained r t heq => exact .same (by rw [heq]; rfl)
    | settled st hattempts => exact .settled f d st (.inl hpc) hattempts
  | drainResume now =>
    obtain ⟨f, d, r, t, hpc, -, hcases⟩ := drainResume_cases h
    exact .settled f d .lost (.inr ⟨r, t, hpc⟩) (hcases (hs v f d r t hpc)).1
  | finishRun => exact .same (finishRun_cases h).2.2.2.1

theorem idsOf_place_of_ne {ranking : Ranking} {now : ℚ} {execId : String} (hne : w ≠ v)
    (h : s.place cfg v ranking now execId = some s') :
    s'.attempts.idsOf w = s.attempts.idsOf w := by
  obtain ⟨f₀, -, -, ⟨ha, -⟩ | ⟨f', p, rest, -, -, hl⟩⟩ := place_cases h
  · rw [ha]
  · rw [idsOf_launched hl, if_neg hne, attempts_promoteSpare]

theorem idsOf_of_not_place {a : Action} (hs : DrainsPlain s) (hrestart : a.isRestart = false)
    (hplace : ∀ v ranking now execId, a ≠ .place v ranking now execId)
    (h : step cfg s a = some s') : s'.attempts.idsOf w = s.attempts.idsOf w := by
  cases hseg : a.segmentOf with
  | none => exact (step_attempts h hseg hrestart).idsOf w
  | some v =>
    cases segment_attempts hs hseg h with
    | same hattempts => rw [hattempts]
    | launched ranking now execId f₀ f p rest ha => exact absurd ha (hplace v ranking now execId)
    | settled f d st hat hsettled => exact hsettled.moves.idsOf w

theorem idsOf_restoreAttempts (reg : AttemptRegistry) (w : String) :
    (State.restoreAttempts reg).idsOf w = (reg.idsOf w).filter fun id =>
      (reg.getAttempt id).any fun r => (StateStore.reloadAttempt r).isSome := by
  unfold State.restoreAttempts AttemptRegistry.idsOf
  dsimp only
  rw [Dict.get?_mapValues]
  cases reg.byWorkload.get? w <;> rfl

/-- The attempts after a restart are those that can be loaded, lost if they were in flight. -/
theorem getAttempt_restoreAttempts {reg : AttemptRegistry} {id : String} {r' : AttemptRecord} :
    (State.restoreAttempts reg).getAttempt id = some r' ↔ ∃ r, reg.getAttempt id = some r ∧
      ∃ r₁, StateStore.reloadAttempt r = some r₁ ∧ State.loseInFlight r₁ = r' := by
  rw [AttemptRegistry.getAttempt, State.restoreAttempts, Dict.get?_filterMapValues]
  simp only [Option.bind_eq_some_iff, Option.map_eq_some_iff, AttemptRegistry.getAttempt]

end Aidars.Orchestrator
