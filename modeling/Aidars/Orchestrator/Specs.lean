import Aidars.Orchestrator.Transitions

/-!
# Specifications and frames

Which steps write the specification of a workload, and which specification a run carries.
A segment of a run leaves the specifications of all workloads alone (`SameSpecs`), except for a
checkpoint, after which the workload continues from the specification that it was dispatched with
(`step_specOf`). A run carries the specification it computed in its first segment through all its
attempts (`step_frameOf`); between attempts its frame only excludes more workers (`Frame.Retries`).
-/

namespace Aidars.Orchestrator

variable {cfg : Config} {s s' s₁ s₂ : State} {w v : String} {f f' : Frame} {d : Dispatch}

/-- The specification of a workload. -/
def State.specOf (s : State) (w : String) : Option WorkloadSpec :=
  (s.workloads.get? w).map (·.spec)

/-- The decision that the record of a workload shows. -/
def State.placementOf (s : State) (v : String) : Option PlacementDecision :=
  (s.workloads.get? v).bind (·.placementDecision)

/-- The workloads have the specifications they had. -/
def SameSpecs (s s' : State) : Prop := ∀ v, s'.specOf v = s.specOf v

theorem SameSpecs.of_workloads (h : s'.workloads = s.workloads) : SameSpecs s s' := by
  intro v
  rw [State.specOf, State.specOf, h]

theorem placementOf_modifyWorkload (s : State) {g : WorkloadRecord → WorkloadRecord}
    (h : v ≠ w ∨ ∀ r, (g r).placementDecision = r.placementDecision) :
    (s.modifyWorkload w g).placementOf v = s.placementOf v := by
  simp only [State.placementOf, State.modifyWorkload, Dict.get?_modify]
  split_ifs with hv
  · rw [hv]
    cases s.workloads.get? w with
    | none => rfl
    | some r => exact h.resolve_left (fun hne => hne hv) r
  · rfl

/-- The workloads have the specifications they had, and but for the one of `o` they show the
decisions they showed. -/
def KeepsRecords (o : Option String) (s s' : State) : Prop :=
  SameSpecs s s' ∧ ∀ v, o ≠ some v → s'.placementOf v = s.placementOf v

namespace KeepsRecords

variable {o : Option String}

theorem specs (h : KeepsRecords o s s') : SameSpecs s s' := h.1

theorem placements (h : KeepsRecords o s s') (hv : o ≠ some v) :
    s'.placementOf v = s.placementOf v :=
  h.2 v hv

theorem of_workloads (h : s'.workloads = s.workloads) : KeepsRecords o s s' := by
  refine ⟨.of_workloads h, fun v _ => ?_⟩
  rw [State.placementOf, State.placementOf, h]

theorem refl (s : State) : KeepsRecords o s s := of_workloads rfl

theorem trans (h₁ : KeepsRecords o s s₁) (h₂ : KeepsRecords o s₁ s₂) : KeepsRecords o s s₂ :=
  ⟨fun v => (h₂.specs v).trans (h₁.specs v),
    fun _ hv => (h₂.placements hv).trans (h₁.placements hv)⟩

theorem modifyWorkload (s : State) (w : String) {g : WorkloadRecord → WorkloadRecord}
    (hspec : ∀ r, (g r).spec = r.spec)
    (hplacement : o = some w ∨ ∀ r, (g r).placementDecision = r.placementDecision) :
    KeepsRecords o s (s.modifyWorkload w g) := by
  constructor
  · intro v
    simp only [State.specOf, State.modifyWorkload, Dict.get?_modify]
    split_ifs with hv
    · rw [hv, Option.map_map]
      exact congrArg (fun g => Option.map g _) (funext hspec)
    · rfl
  · intro v hv
    refine placementOf_modifyWorkload s (hplacement.imp_left ?_)
    rintro rfl rfl
    exact hv rfl

theorem updateState (s : State) (w : String) (st : WorkloadState) (m : Option String) :
    KeepsRecords o s (s.updateState w st m) :=
  modifyWorkload s w (fun _ => rfl) (.inr fun _ => rfl)

theorem setPlacement (s : State) (w : String) (p : Option PlacementDecision) :
    KeepsRecords (some w) s (s.setPlacement w p) :=
  modifyWorkload s w (fun _ => rfl) (.inl rfl)

theorem setResult (s : State) (w : String) (r : WorkloadExecutionResult) :
    KeepsRecords o s (s.setResult w r) :=
  modifyWorkload s w (fun _ => rfl) (.inr fun _ => rfl)

theorem returnRun (s : State) (w : String) : KeepsRecords o s (s.returnRun w) :=
  of_workloads (workloads_returnRun s w)

theorem failRun (s : State) (w : String) (m : Option String) : KeepsRecords o s (s.failRun w m) :=
  (updateState s w _ m).trans (returnRun _ w)

theorem retryOrFail (s : State) (w : String) (f : Frame) (c : Option FailureCategory) (m : String) :
    KeepsRecords o s (s.retryOrFail cfg w f c m) := by
  unfold State.retryOrFail
  split_ifs
  · exact of_workloads rfl
  · exact failRun s w _

theorem promoteSpare (s : State) (f : Frame) : KeepsRecords o s (s.promoteSpare f).1 :=
  of_workloads (promoteSpare_frame s f).1

theorem dependencyState (s : State) (w : String) (deps : List String) :
    KeepsRecords o s (s.dependencyState w deps).1 := by
  rcases dependencyState_cases s w deps with h | ⟨-, m, h⟩
  · rw [h]
    exact .refl s
  · rw [h]
    exact .updateState s w _ m

/-- The workload is submitted again after a checkpoint. -/
theorem resubmit (s : State) (w : String) : KeepsRecords (some w) s
    (((s.setPlacement w none).updateState w .submitted).enqueueWorkload w |>.returnRun w) :=
  ((setPlacement s w none).trans (.updateState _ w _ none)).trans
    ((of_workloads (enqueueWorkload_cases _ w).2).trans (.returnRun _ w))

end KeepsRecords

/-! ## Frames that are carried on -/

/-- The frame with which a run goes on after an attempt: it may exclude more workers. -/
structure Frame.Retries (f f' : Frame) : Prop where
  spec : f'.spec = f.spec
  executionShape : f'.executionShape = f.executionShape
  requiredWorkerCount : f'.requiredWorkerCount = f.requiredWorkerCount
  parentJob : f'.parentJob = f.parentJob
  jobSelectedIds : f'.jobSelectedIds = f.jobSelectedIds
  exhausted : ∀ x ∈ f.exhaustedWorkerIds, x ∈ f'.exhaustedWorkerIds

theorem Frame.retries_exhaust (f : Frame) (ids : List String) : f.Retries (f.exhaust ids) :=
  ⟨rfl, rfl, rfl, rfl, rfl, fun _ hx => PySet.mem_foldl_insert.2 (.inl hx)⟩

/-- The run has returned, or waits for the placement lock with a frame that excludes the workers of
`ids` at most besides those it excluded before. -/
def GoesOn (w : String) (s' : State) (f : Frame) (ids : List String) : Prop :=
  s'.frameOf w = none ∨ ∃ f', s'.runs.get? w = some (.lockWait f') ∧ f.Retries f' ∧
    ∀ x ∈ f'.exhaustedWorkerIds, x ∈ f.exhaustedWorkerIds ∨ x ∈ ids

theorem frameOf_of_returned (h : Returned w s) : s.frameOf w = none := by
  unfold State.frameOf
  rcases h with h | h <;> rw [h]

theorem GoesOn.of_returned {ids : List String} (h : Returned w s') : GoesOn w s' f ids :=
  .inl (frameOf_of_returned h)

theorem GoesOn.nextAttempt (s : State) (w : String) (f : Frame) (ids : List String) :
    GoesOn w (s.nextAttempt w (f.exhaust ids)) f ids := by
  obtain ⟨h₁, h₂, h₃, h₄, h₅, h₆⟩ := f.retries_exhaust ids
  exact .inr ⟨_, runs_nextAttempt s w _, ⟨h₁, h₂, h₃, h₄, h₅, h₆⟩,
    fun x hx => PySet.mem_foldl_insert.1 hx⟩

theorem GoesOn.retryOrFail (s : State) (w : String) (f : Frame) (ids : List String)
    (c : Option FailureCategory) (m : String) :
    GoesOn w (s.retryOrFail cfg w (f.exhaust ids) c m) f ids := by
  unfold State.retryOrFail
  split_ifs
  · exact .nextAttempt s w f ids
  · exact .of_returned (returned_failRun s w _)

/-! ## The segments -/

/-- The frame that a run enters its loop with. -/
theorem enterLoop_spec (s : State) (w : String) (f : Frame) :
    KeepsRecords (some w) s (s.enterLoop cfg w f) ∧
      ((s.enterLoop cfg w f).frameOf w = none ∨ ∃ f',
        (s.enterLoop cfg w f).runs.get? w = some (.lockWait f') ∧
        f' = { (((s.updateState w .validating).updateState w .placing).promoteSpare f).2 with
          attemptsUsed := f.attemptsUsed + 1 }) := by
  have hplacing : KeepsRecords (some w) s ((s.updateState w .validating).updateState w .placing) :=
    (KeepsRecords.updateState s w _ none).trans (.updateState _ w _ none)
  unfold State.enterLoop
  dsimp only
  have hused := (promoteSpare_frame ((s.updateState w .validating).updateState w .placing) f).2.2.2
  split_ifs
  · exact ⟨hplacing.trans (.failRun _ w _), .inl (frameOf_of_returned (returned_failRun _ w _))⟩
  · exact ⟨(hplacing.trans (.promoteSpare _ f)).trans (.failRun _ w _),
      .inl (frameOf_of_returned (returned_failRun _ w _))⟩
  · refine ⟨(hplacing.trans (.promoteSpare _ f)).trans (.of_workloads rfl), .inr ⟨_, ?_, rfl⟩⟩
    rw [runs_nextAttempt, hused]

theorem promoteSpare_retries (s : State) (f : Frame) :
    (s.promoteSpare f).2.spec = f.spec ∧ (s.promoteSpare f).2.executionShape = f.executionShape ∧
      (s.promoteSpare f).2.requiredWorkerCount = f.requiredWorkerCount ∧
      (s.promoteSpare f).2.parentJob = f.parentJob ∧
      (s.promoteSpare f).2.exhaustedWorkerIds = f.exhaustedWorkerIds := by
  unfold State.promoteSpare
  split
  · split
    · split_ifs <;> exact ⟨rfl, rfl, rfl, rfl, rfl⟩
    · exact ⟨rfl, rfl, rfl, rfl, rfl⟩
  · exact ⟨rfl, rfl, rfl, rfl, rfl⟩

/-- The first segment leaves the records alone; a run that enters its loop has met its
dependencies and carries their outputs. -/
theorem startRun_spec (h : s.startRun cfg w = some s') :
    KeepsRecords (some w) s s' ∧ (s'.frameOf w = none ∨ ∃ r spec f', s.workloads.get? w = some r ∧
      (s.dependencyState w r.spec.dependsOn).2 = .ready ∧
      s.specWithDependencyOutputs r.spec r.spec.dependsOn = some spec ∧
      s'.runs.get? w = some (.lockWait f') ∧
      f' =
        { (((s.updateState w .validating).updateState w .placing).promoteSpare
            (s.initialFrame w spec)).2 with
          attemptsUsed := (s.initialFrame w spec).attemptsUsed + 1 }) := by
  have hreturn : ∀ s₀, KeepsRecords (some w) s s₀ → KeepsRecords (some w) s (s₀.returnRun w) ∧
      (s₀.returnRun w).frameOf w = none :=
    fun s₀ hs => ⟨hs.trans (.returnRun s₀ w), frameOf_of_returned (returned_returnRun s₀ w)⟩
  unfold State.startRun at h
  split at h
  · split at h
    · obtain rfl := Option.some.inj h
      exact ⟨(hreturn s (.refl s)).1, .inl (hreturn s (.refl s)).2⟩
    · rename_i record hrecord
      have hdep := KeepsRecords.dependencyState (o := some w) s w record.spec.dependsOn
      have hready := dependencyState_ready s w record.spec.dependsOn
      split_ifs at h
      · obtain rfl := Option.some.inj h
        exact ⟨(hreturn s (.refl s)).1, .inl (hreturn s (.refl s)).2⟩
      · split at h
        · rename_i s₁ hs
          rw [hs] at hready
          obtain rfl : s₁ = s := hready rfl
          split at h
          · rename_i spec hspec
            obtain rfl := Option.some.inj h
            have hloop := @enterLoop_spec cfg s₁ w (s₁.initialFrame w spec)
            refine ⟨hloop.1, hloop.2.imp_right ?_⟩
            rintro ⟨f', hf', heq⟩
            exact ⟨record, spec, f', hrecord, by rw [hs], hspec, hf', heq⟩
          · obtain rfl := Option.some.inj h
            exact ⟨(hreturn s₁ (.refl s₁)).1, .inl (hreturn s₁ (.refl s₁)).2⟩
        · rename_i s₁ _ _ hs
          rw [hs] at hdep
          obtain rfl := Option.some.inj h
          exact ⟨(hreturn s₁ hdep).1, .inl (hreturn s₁ hdep).2⟩
  · cases h

theorem keepsRecords_noDecision (s : State) (w : String) (f : Frame) :
    KeepsRecords (some w) s (s.noDecision w f) := by
  have hp := KeepsRecords.setPlacement s w none
  unfold State.noDecision
  dsimp only
  split_ifs
  · exact (hp.trans (.updateState _ w _ _)).trans (.returnRun _ w)
  · exact hp.trans (.failRun _ w _)
  · exact hp.trans (.failRun _ w _)
  · exact (hp.trans (.updateState _ w _ _)).trans (.returnRun _ w)

theorem map_workerId_dispatchCalls (s : State) (f : Frame) (id : String) (p : PlacementDecision)
    (g : Option ExecutionGroup) :
    (s.dispatchCalls f id p g).map (·.workerId) = selectedIds p g := by
  unfold State.dispatchCalls selectedIds
  cases g with
  | none => rfl
  | some g =>
    dsimp only
    rw [List.map_map]
    exact List.zipIdx_map_fst 0 g.workerIds

/-- A dispatch that placement has just made for the decisions. -/
structure Dispatch.Made (d : Dispatch) (f : Frame) (execId : String)
    (decisions : List PlacementDecision) : Prop where
  decision : decisions.head? = some d.decision
  executionGroup : d.executionGroup = State.newGroup f execId decisions
  calls : d.calls.map (·.workerId) = d.workerIds

/-- What placement records for its decisions: the attempt is dispatched, or it is lost because
selected workers have vanished. -/
inductive Recorded (s s' : State) (w : String) (f : Frame) (execId : String)
    (p : PlacementDecision) (rest : List PlacementDecision) : Prop
  | dispatched (d : Dispatch) (hpc : s'.runs.get? w = some (.dispatch f d))
      (hmade : d.Made f execId (p :: rest)) (hid : d.attemptId = s.attempts.nextId w)
      (hattempts : s'.attempts = (assignNew s.attempts w p
        (State.newGroup f execId (p :: rest))).markRunning (s.attempts.nextId w))
  | vanished (m : Option String) (missing : List String)
      (hmissing : ∀ x ∈ missing, x ∈ selectedIds p (State.newGroup f execId (p :: rest)))
      (hattempts : s'.attempts = (assignNew s.attempts w p
        (State.newGroup f execId (p :: rest))).markLost (s.attempts.nextId w) m missing)
      (hgoes : GoesOn w s' f missing)

theorem keepsRecords_launch {o : Option String} (s : State) (w : String) (f : Frame) (id : String)
    (p : PlacementDecision) (g : Option ExecutionGroup) (workers : List WorkerInfo) :
    KeepsRecords o s (s.launch cfg w f id p g workers) := by
  unfold State.launch
  dsimp only
  split_ifs
  · exact (KeepsRecords.of_workloads rfl).trans (.retryOrFail _ w _ _ _)
  · exact (KeepsRecords.of_workloads rfl).trans
      ((KeepsRecords.updateState _ w .executing none).trans (.of_workloads rfl))

/-- How the launch of an attempt leaves records and frame. -/
theorem launch_recorded (s : State) (w : String) (f : Frame) (execId : String)
    (p : PlacementDecision) (rest : List PlacementDecision) (workers : List WorkerInfo) (s' : State)
    (h : s' = (s.recordAttempt w p (State.newGroup f execId (p :: rest))).launch cfg w f
      (s.attempts.nextId w) p (State.newGroup f execId (p :: rest)) workers) :
    KeepsRecords (some w) s s' ∧ Recorded s s' w f execId p rest := by
  have hrecord : KeepsRecords (some w) s
      (s.recordAttempt w p (State.newGroup f execId (p :: rest))) :=
    ((KeepsRecords.setPlacement s w (some p)).trans (.updateState _ w .placed none)).trans
      (.of_workloads rfl)
  subst h
  refine ⟨hrecord.trans (keepsRecords_launch _ w f _ p _ workers), ?_⟩
  unfold State.launch
  dsimp only
  split_ifs
  · refine .vanished _ _ ?_ (attempts_retryOrFail _ w _ _ _).1 (.retryOrFail _ w f _ _ _)
    exact fun x hx => List.mem_of_mem_filter hx
  · refine .dispatched _ (runs_setPc _ w _) ⟨rfl, rfl, ?_⟩ rfl rfl
    exact map_workerId_dispatchCalls _ f _ p _

/-- Placement leaves the other records alone; the run goes on with the frame it had, but for the
promotion of a spare worker. -/
theorem place_spec {ranking : Ranking} {now : ℚ} {execId : String}
    (h : s.place cfg w ranking now execId = some s') :
    ∃ f₀, s.runs.get? w = some (.lockWait f₀) ∧ KeepsRecords (some w) s s' ∧
      ((s'.frameOf w = none ∧ s'.attempts = s.attempts) ∨
        ∃ p rest, (s.promoteSpare f₀).1.choose cfg w (s.promoteSpare f₀).2 ranking now =
            some (p :: rest) ∧
          Recorded (s.promoteSpare f₀).1 s' w (s.promoteSpare f₀).2 execId p rest) := by
  unfold State.place at h
  split at h
  · rename_i f₀ hpc
    refine ⟨f₀, hpc, ?_⟩
    dsimp only at h
    have hp := KeepsRecords.promoteSpare (o := some w) s f₀
    have ha := attempts_promoteSpare s f₀
    have hnone : KeepsRecords (some w) s
        ((s.promoteSpare f₀).1.noDecision w (s.promoteSpare f₀).2) ∧
        ((s.promoteSpare f₀).1.noDecision w (s.promoteSpare f₀).2).frameOf w = none ∧
        ((s.promoteSpare f₀).1.noDecision w (s.promoteSpare f₀).2).attempts = s.attempts := by
      obtain ⟨hna, -, hnr⟩ := noDecision_cases (s.promoteSpare f₀).1 w (s.promoteSpare f₀).2
      exact ⟨hp.trans (keepsRecords_noDecision _ w _), frameOf_of_returned hnr, hna.trans ha⟩
    split_ifs at h
    · obtain rfl := Option.some.inj h
      exact ⟨hp.trans (.returnRun _ w), .inl ⟨frameOf_of_returned (returned_returnRun _ w),
        (attempts_returnRun _ w).trans ha⟩⟩
    · split at h
      · obtain rfl := Option.some.inj h
        exact ⟨hnone.1, .inl hnone.2⟩
      · obtain rfl := Option.some.inj h
        exact ⟨hnone.1, .inl hnone.2⟩
      · rename_i p rest hchoose
        obtain ⟨hsame, hrec⟩ := launch_recorded _ w _ execId p rest _ s' (Option.some.inj h).symm
        exact ⟨hp.trans hsame, .inr ⟨p, rest, hchoose, hrec⟩⟩
  · cases h

/-! ## The answer of a dispatch -/

/-- The specification with which a workload continues from a checkpoint. -/
def resumeSpec (spec : WorkloadSpec) (hash : String) : WorkloadSpec :=
  { spec with
    inputAssetHashes := insert hash spec.inputAssetHashes
    parameters := spec.parameters.set "resume_from_checkpoint" (.str hash) }

theorem specOf_updateSpec (s : State) (spec : WorkloadSpec) (v : String) :
    (s.updateSpec spec).specOf v =
      if v = spec.workloadId then (s.specOf v).map fun _ => spec else s.specOf v := by
  simp only [State.specOf, State.updateSpec, State.modifyWorkload, Dict.get?_modify]
  split_ifs with hv
  · rw [hv, Option.map_map, Option.map_map]
    rfl
  · rfl

theorem specOf_checkpointResult (s : State) (w : String) (f : Frame) (d : Dispatch)
    (r : WorkloadExecutionResult) (v : String) : (s.checkpointResult w f d r).specOf v =
      match r.checkpointHash.filter (· ≠ "") with
      | some hash => if v = f.spec.workloadId then (s.specOf v).map fun _ => resumeSpec f.spec hash
        else s.specOf v
      | none => s.specOf v := by
  have hmigrating : (s.updateState w .migrating).specOf v = s.specOf v :=
    (KeepsRecords.updateState (o := none) s w .migrating none).specs v
  unfold State.checkpointResult
  dsimp only
  rw [(KeepsRecords.resubmit _ w).specs v]
  cases r.checkpointHash.filter (· ≠ "") with
  | none => exact hmigrating
  | some hash =>
    dsimp only
    rw [specOf_updateSpec]
    split_ifs
    · exact congrArg (Option.map _) hmigrating
    · exact hmigrating

theorem keepsRecords_successResult (s : State) (w : String) (f : Frame) (d : Dispatch)
    (r : WorkloadExecutionResult) : KeepsRecords (some w) s (s.successResult w f d r) := by
  have hstored : KeepsRecords (some w) s ((s.setResult w r).updateState w .completed) :=
    (KeepsRecords.setResult s w r).trans (.updateState _ w _ none)
  have hrecord : ∀ s₀ : State, (s₀.recordArtifacts r).workloads = s₀.workloads := by
    intro s₀
    unfold State.recordArtifacts
    split_ifs <;> rfl
  unfold State.successResult
  refine KeepsRecords.trans (hstored.trans (.of_workloads (hrecord _))) ?_
  exact KeepsRecords.trans (.of_workloads rfl) (.returnRun _ w)

/-- The workers that a failed result is blamed on. -/
def blamedIds (d : Dispatch) (r : WorkloadExecutionResult) (u : PySet String) : List String :=
  if u ≠ ∅ then u.toList
  else if exhausts r.failureCategory then [d.decision.selectedWorkerId]
  else []

theorem failureResult_spec (s : State) (w : String) (f : Frame) (d : Dispatch)
    (r : WorkloadExecutionResult) (u : PySet String) (b : Bool) (now : ℚ) :
    KeepsRecords (some w) s (s.failureResult cfg w f d r u b now) ∧
      GoesOn w (s.failureResult cfg w f d r u b now) f (blamedIds d r u) := by
  have hsettled : KeepsRecords (some w) s (s.settleFailure d r u b) :=
    .of_workloads (settled_settleFailure s w d r u b).choose_spec.2.2.2.1
  have hnone : ∀ f₀ : Frame, f₀.exhaust [] = f₀ := fun _ => rfl
  obtain ⟨s₁, heq, hs₁⟩ : ∃ s₁ : State,
      (if u ≠ ∅ then ((s.settleFailure d r u b).recordFailures cfg u.toList now,
          f.exhaust u.toList)
        else if exhausts r.failureCategory = true then
          (s.settleFailure d r u b, f.exhaust [d.decision.selectedWorkerId])
        else (s.settleFailure d r u b, f)) = (s₁, f.exhaust (blamedIds d r u)) ∧
      KeepsRecords (some w) s s₁ := by
    unfold blamedIds
    split_ifs
    · exact ⟨_, rfl, hsettled.trans (.of_workloads rfl)⟩
    · exact ⟨_, rfl, hsettled⟩
    · exact ⟨_, by rw [hnone], hsettled⟩
  unfold State.failureResult
  dsimp only
  rw [heq]
  dsimp only
  split_ifs
  · exact ⟨hs₁.trans (.of_workloads rfl), .nextAttempt s₁ w f _⟩
  · exact ⟨hs₁.trans ((KeepsRecords.setResult s₁ w r).trans (.failRun _ w _)),
      .of_returned (returned_failRun _ w _)⟩

theorem attempts_failureResult (s : State) (w : String) (f : Frame) (d : Dispatch)
    (r : WorkloadExecutionResult) (u : PySet String) (b : Bool) (now : ℚ) :
    (s.failureResult cfg w f d r u b now).attempts = (s.settleFailure d r u b).attempts := by
  unfold State.failureResult
  dsimp only
  split_ifs
  · rfl
  · exact attempts_failRun _ w _
  · rfl
  · exact attempts_failRun _ w _
  · rfl
  · exact attempts_failRun _ w _

/-- A failure that is blamed on workers is recorded in the attempt. -/
theorem failureCategory_settleFailure {r : WorkloadExecutionResult} {u : PySet String} {b : Bool}
    (h : blamedIds d r u ≠ []) (a : AttemptRecord)
    (ha : (s.settleFailure d r u b).attempts.getAttempt d.attemptId = some a) :
    a.failureCategory.isSome = true := by
  unfold State.settleFailure at ha
  split_ifs at ha with hlost <;> dsimp only at ha
  · rw [AttemptRegistry.markLost, AttemptRegistry.getAttempt_update, if_pos rfl] at ha
    obtain ⟨a₀, -, rfl⟩ := Option.map_eq_some_iff.1 ha
    rfl
  · rw [AttemptRegistry.markFailed, AttemptRegistry.getAttempt_update, if_pos rfl] at ha
    obtain ⟨a₀, -, rfl⟩ := Option.map_eq_some_iff.1 ha
    -- no member is unavailable here, so the category of the result is one that excludes
    have hu : ¬ u ≠ ∅ := fun hu => hlost (.inl hu)
    rw [blamedIds, if_neg hu] at h
    cases hcat : r.failureCategory with
    | some c => rfl
    | none =>
      rw [hcat] at h
      exact absurd rfl h

/-- The answer reports the worker unavailable. -/
def Reply.Reports (x : String) : Reply → Prop
  | .result _ u t => x ∈ u ∨ x ∈ t
  | _ => False

/-- The group of the attempt records the worker unavailable. -/
def State.RecordsUnavailable (s : State) (id x : String) : Prop :=
  ∃ a g, s.attempts.getAttempt id = some a ∧ a.executionGroup = some g ∧ x ∈ g.unavailableWorkerIds

/-- The workers that an answer is blamed on: they belong to the dispatch, or the answer or the
group of the attempt says that they are unavailable. The attempt has failed when there are any. -/
structure Blames (s s' : State) (d : Dispatch) (reply : Reply) (ids : List String) : Prop where
  source : ∀ x ∈ ids, x = d.decision.selectedWorkerId ∨ x ∈ d.workerIds ∨ reply.Reports x ∨
    s.RecordsUnavailable d.attemptId x
  failed : ids ≠ [] → ∀ a, s'.attempts.getAttempt d.attemptId = some a →
    a.failureCategory.isSome = true

/-- How the segment after an answer leaves specifications and frame. -/
inductive Answered (s s' : State) (w : String) (f : Frame) (d : Dispatch) (reply : Reply) : Prop
  | waits (r : WorkloadExecutionResult) (t : PySet String)
      (heq : s' = s.setPc w (.drainWait f d r t)) (ht : ∀ x ∈ t, reply.Reports x)
  | checkpoint (r : WorkloadExecutionResult) (u t : PySet String) (hash : String)
      (hreply : reply = .result r u t) (hgroup : d.executionGroup = none)
      (hc : r.wasCheckpointed = true) (hhash : r.checkpointHash.filter (· ≠ "") = some hash)
      (hattempts : s'.attempts = s.attempts.markSucceeded d.attemptId r) (hreturned : Returned w s')
      (hspec : ∀ v, s'.specOf v = if v = f.spec.workloadId then
        (s.specOf v).map fun _ => resumeSpec f.spec hash else s.specOf v)
  | same (ids : List String) (hspec : SameSpecs s s') (hframe : GoesOn w s' f ids)
      (hids : Blames s s' d reply ids)

theorem mem_blamedIds {r : WorkloadExecutionResult} {u : PySet String} {x : String}
    (h : x ∈ blamedIds d r u) : x = d.decision.selectedWorkerId ∨ x ∈ u := by
  unfold blamedIds at h
  split_ifs at h
  · exact .inr h
  · exact .inl (List.mem_singleton.1 h)
  · cases h

/-- A failed result: the specifications stay, and the failure is blamed on workers. -/
theorem Answered.of_failure {r : WorkloadExecutionResult} {u : PySet String} {b : Bool} {now : ℚ}
    {reply : Reply} (hu : ∀ x ∈ u, reply.Reports x ∨ s.RecordsUnavailable d.attemptId x) :
    Answered s (s.failureResult cfg w f d r u b now) w f d reply := by
  obtain ⟨hspec, hframe⟩ := failureResult_spec s w f d r u b now
  refine .same _ hspec.specs hframe ⟨fun x hx => ?_, fun hne a ha => ?_⟩
  · rcases mem_blamedIds hx with hx | hx
    · exact .inl hx
    · exact .inr (.inr (hu x hx))
  · rw [attempts_failureResult] at ha
    exact failureCategory_settleFailure hne a ha

theorem Answered.of_returned {reply : Reply} (hspec : SameSpecs s s') (hr : Returned w s') :
    Answered s s' w f d reply :=
  .same [] hspec (.of_returned hr) ⟨nofun, fun h => absurd rfl h⟩

theorem mem_recorded {t : PySet String} {x : String} (h : x ∈ ((((s.attempts.getAttempt
    d.attemptId).bind AttemptRecord.executionGroup).map
      ExecutionGroup.unavailableWorkerIds).getD ∅).union t) :
    x ∈ t ∨ s.RecordsUnavailable d.attemptId x := by
  rcases PySet.mem_union.1 h with h | h
  · cases ha : s.attempts.getAttempt d.attemptId with
    | none =>
      rw [ha] at h
      exact absurd h (PySet.notMem_empty x)
    | some a =>
      rw [ha, Option.bind_some] at h
      cases hg : a.executionGroup with
      | none =>
        rw [hg] at h
        exact absurd h (PySet.notMem_empty x)
      | some g =>
        rw [hg] at h
        exact .inr ⟨a, g, ha, hg, h⟩
  · exact .inl h

theorem answered_lostGroupResult {r : WorkloadExecutionResult} {t : PySet String} {now : ℚ}
    {reply : Reply} (hr : r.wasCheckpointed = false) (ht : ∀ x ∈ t, reply.Reports x) :
    Answered s (s.lostGroupResult cfg w f d r t now) w f d reply := by
  unfold State.lostGroupResult State.settleResult
  dsimp only
  rw [if_neg (by simp [hr]), if_neg (by simp)]
  refine .of_failure fun x hx => ?_
  rcases mem_recorded hx with hx | hx
  · exact .inl (ht x hx)
  · exact .inr hx

theorem answered_checkpointResult {r : WorkloadExecutionResult} {u t : PySet String}
    (hgroup : d.executionGroup = none) (hc : r.wasCheckpointed = true) :
    Answered s (s.checkpointResult w f d r) w f d (.result r u t) := by
  obtain ⟨ha, -, hr⟩ := settled_checkpointResult s w f d r
  have hspec := specOf_checkpointResult s w f d r
  cases hhash : r.checkpointHash.filter (· ≠ "") with
  | some hash =>
    rw [hhash] at hspec
    exact .checkpoint r u t hash rfl hgroup hc hhash ha hr hspec
  | none =>
    rw [hhash] at hspec
    exact .of_returned hspec hr

theorem keepsRecords_cancelledResult (s : State) (w : String) (d : Dispatch)
    (r : WorkloadExecutionResult) : KeepsRecords (some w) s (s.cancelledResult w d r) := by
  unfold State.cancelledResult
  exact (KeepsRecords.of_workloads rfl).trans
    ((KeepsRecords.updateState _ w .cancelled _).trans (.returnRun _ w))

theorem answered_handleResult (s : State) (w : String) (f : Frame) (d : Dispatch)
    (r : WorkloadExecutionResult) (u t : PySet String) (now : ℚ) :
    Answered s (s.handleResult cfg w f d r u t now) w f d (.result r u t) := by
  unfold State.handleResult
  dsimp only
  split_ifs with hcancelled hgroup
  · exact .of_returned (keepsRecords_cancelledResult s w d _).specs
      (attempts_cancelledResult s w d _).2.2
  · have hr := wasCheckpointed_rejectGroupCheckpoint (r := r) hgroup.1
    split
    · exact .waits _ t rfl fun x hx => .inr hx
    · exact answered_lostGroupResult hr fun x hx => .inr hx
  · unfold State.settleResult
    split_ifs with hc
    · have hsingle : d.executionGroup = none := by
        cases hg : d.executionGroup with
        | none => rfl
        | some g =>
          rw [wasCheckpointed_rejectGroupCheckpoint (by rw [hg]; rfl)] at hc
          cases hc
      have heq : State.rejectGroupCheckpoint d r = r := by
        unfold State.rejectGroupCheckpoint
        rw [if_neg (by simp [hsingle])]
      rw [heq] at hc ⊢
      exact answered_checkpointResult hsingle hc
    · exact .of_returned (keepsRecords_successResult s w f d _).specs
        (settled_successResult s w f d _).2.2
    · exact .of_failure fun x hx => .inl (.inl hx)

theorem Answered.of_exception {s₁ : State} {c : Option FailureCategory} {m : String} {reply : Reply}
    (hw : s₁.workloads = s.workloads) (ha : ∀ a, s₁.attempts.getAttempt d.attemptId = some a →
      a.failureCategory.isSome = true) :
    Answered s (s₁.retryOrFail cfg w (f.exhaust d.workerIds) c m) w f d reply := by
  have hkeeps : KeepsRecords none s (s₁.retryOrFail cfg w (f.exhaust d.workerIds) c m) :=
    (KeepsRecords.of_workloads hw).trans (.retryOrFail s₁ w _ c m)
  refine .same d.workerIds hkeeps.specs (.retryOrFail s₁ w f _ c m)
    ⟨fun x hx => .inr (.inl hx), fun _ a h => ?_⟩
  rw [(attempts_retryOrFail s₁ w _ c m).1] at h
  exact ha a h

theorem failureCategory_markLost {reg : AttemptRegistry} {id : String} {m : Option String}
    {ids : List String} (a : AttemptRecord) (h : (reg.markLost id m ids).getAttempt id = some a) :
    a.failureCategory.isSome = true := by
  rw [AttemptRegistry.markLost, AttemptRegistry.getAttempt_update, if_pos rfl] at h
  obtain ⟨a₀, -, rfl⟩ := Option.map_eq_some_iff.1 h
  rfl

theorem failureCategory_markFailed {reg : AttemptRegistry} {id : String} {c : FailureCategory}
    {m : Option String} {r : Option WorkloadExecutionResult} (a : AttemptRecord)
    (h : (reg.markFailed id (some c) m r).getAttempt id = some a) :
    a.failureCategory.isSome = true := by
  rw [AttemptRegistry.markFailed, AttemptRegistry.getAttempt_update, if_pos rfl] at h
  obtain ⟨a₀, -, rfl⟩ := Option.map_eq_some_iff.1 h
  rfl

theorem keepsRecords_handleOtherException (s : State) (w : String) (f : Frame) (d : Dispatch)
    (m : String) (now : ℚ) : KeepsRecords (some w) s (s.handleOtherException cfg w f d m now) := by
  have hsettled : KeepsRecords (some w) s
      ((s.recordFailures cfg d.workerIds now).settleException d m) := by
    unfold State.settleException
    split_ifs <;> exact .of_workloads rfl
  unfold State.handleOtherException
  dsimp only
  split_ifs
  · exact hsettled.trans (.of_workloads rfl)
  · exact hsettled.trans ((KeepsRecords.updateState _ w .failed _).trans (.of_workloads rfl))

/-- **How the segment after an answer leaves specifications and frame.** -/
theorem handleReply_answered (s : State) (w : String) (f : Frame) (d : Dispatch) (now : ℚ)
    (reply : Reply) : Answered s (s.handleReply cfg w f d now reply) w f d reply := by
  cases reply with
  | result r u t => exact answered_handleResult s w f d r u t now
  | recordLost m => exact .of_exception rfl fun a => failureCategory_markLost a
  | submitUnavailable m => exact .of_exception rfl fun a => failureCategory_markFailed a
  | otherException m =>
    have hfailed : ∀ a, ((s.recordFailures cfg d.workerIds now).settleException d
        m).attempts.getAttempt d.attemptId = some a → a.failureCategory.isSome = true := by
      unfold State.settleException
      split_ifs
      · exact fun a => failureCategory_markLost a
      · exact fun a => failureCategory_markFailed a
    have hids : Blames s ((s.recordFailures cfg d.workerIds now).settleException d m) d
        (.otherException m) d.workerIds := ⟨fun x hx => .inr (.inl hx), fun _ => hfailed⟩
    have hkeeps : KeepsRecords (some w) s (s.handleOtherException cfg w f d m now) :=
      keepsRecords_handleOtherException s w f d m now
    show Answered s (s.handleOtherException cfg w f d m now) w f d _
    refine .same d.workerIds hkeeps.specs ?_ ?_
    all_goals
      unfold State.handleOtherException
      dsimp only
      split_ifs
    · exact .nextAttempt _ w f _
    · exact .nextAttempt _ w f _
    · exact ⟨hids.source, hids.failed⟩
    · exact ⟨hids.source, hids.failed⟩

theorem resume_answered {now : ℚ} (h : s.resume cfg w now = some s') :
    ∃ f d reply, s.runs.get? w = some (.dispatch f d) ∧ State.dispatchReply cfg f d = some reply ∧
      Answered s s' w f d reply := by
  obtain ⟨f, d, reply, hpc, hr, rfl, -⟩ := resume_cases h
  exact ⟨f, d, reply, hpc, hr, handleReply_answered s w f d now reply⟩

/-- After a group drain the specifications stay, and the failure is blamed on workers. -/
theorem drainResume_answered {now : ℚ} (h : s.drainResume cfg w now = some s') :
    ∃ f d r t, s.runs.get? w = some (.drainWait f d r t) ∧
      (r.wasCheckpointed = false → ∃ ids, SameSpecs s s' ∧ GoesOn w s' f ids ∧
        Blames s s' d (.result r ∅ t) ids) := by
  unfold State.drainResume at h
  split at h
  · rename_i f d r t hpc
    split_ifs at h
    obtain rfl := Option.some.inj h
    refine ⟨f, d, r, t, hpc, fun hr => ?_⟩
    unfold State.lostGroupResult State.settleResult
    dsimp only
    rw [if_neg (by simp [hr]), if_neg (by simp)]
    refine ⟨_, (failureResult_spec _ w f d _ _ true now).1.specs,
      (failureResult_spec _ w f d _ _ true
      now).2, fun x hx => ?_, fun hne a ha => ?_⟩
    · rcases mem_blamedIds hx with hx | hx
      · exact .inl hx
      · rcases mem_recorded hx with hx | hx
        · exact .inr (.inr (.inl (.inr hx)))
        · exact .inr (.inr (.inr hx))
    · rw [attempts_failureResult] at ha
      exact failureCategory_settleFailure hne a ha
  · cases h

/-! ## All steps -/

/-- What a step does to the specification of a workload. -/
inductive SpecStep (s : State) (a : Action) (s' : State) (v : String) : Prop
  | same (hspec : s'.specOf v = s.specOf v)
  | submitted (spec : WorkloadSpec) (ha : a = .submitWorkload spec) (hv : v = spec.workloadId)
      (hnew : s.specOf v = none) (hspec : s'.specOf v = some spec)
  | checkpoint (u : String) (now : ℚ) (f : Frame) (d : Dispatch) (r : WorkloadExecutionResult)
      (hash : String) (ha : a = .resume u now) (hpc : s.runs.get? u = some (.dispatch f d))
      (hv : v = f.spec.workloadId) (hc : r.wasCheckpointed = true)
      (hhash : r.checkpointHash.filter (· ≠ "") = some hash)
      (hattempts : s'.attempts = s.attempts.markSucceeded d.attemptId r) (hreturned : Returned u s')
      (hspec : s'.specOf v = (s.specOf v).map fun _ => resumeSpec f.spec hash)

theorem submitWorkload_spec (s : State) (spec : WorkloadSpec) (v : String) :
    (s.submitWorkload cfg spec).specOf v = s.specOf v ∨ (v = spec.workloadId ∧ s.specOf v = none ∧
      (s.submitWorkload cfg spec).specOf v = some spec) := by
  unfold State.submitWorkload State.addWorkload
  cases hrecord : s.workloads.get? spec.workloadId with
  | some existing =>
    dsimp only
    split_ifs
    · exact .inl (SameSpecs.of_workloads (enqueueWorkload_cases s _).2 v)
    · exact .inl rfl
  | none =>
    dsimp only
    have hw := (enqueueWorkload_cases
      { s with workloads := s.workloads.set spec.workloadId { spec } } spec.workloadId).2
    rw [State.specOf, State.specOf, hw, Dict.get?_set]
    split_ifs with hv
    · rw [hv, hrecord]
      exact .inr ⟨rfl, rfl, rfl⟩
    · exact .inl rfl

section Outside

variable {a : Action} {o : Option String}

theorem keepsRecords_checkReady (acc : State × List String) (l : List String) :
    KeepsRecords o acc.1 (l.foldl State.checkReady acc).1 := by
  induction l generalizing acc with
  | nil => exact .refl _
  | cons w l ih =>
    refine KeepsRecords.trans ?_ (ih (State.checkReady acc w))
    unfold State.checkReady
    split
    · rename_i r _
      have hdep := KeepsRecords.dependencyState (o := o) acc.1 w r.spec.dependsOn
      split
      · rename_i s₁ hs
        rw [hs] at hdep
        exact hdep
      · rename_i s₁ _ _ hs
        rw [hs] at hdep
        exact hdep
    · exact .refl _

theorem keepsRecords_admissionPass {order : List String}
    (h : s.admissionPass cfg order = some s') : KeepsRecords o s s' := by
  have hcheck := keepsRecords_checkReady (o := o) (s, []) s.pendingIds
  unfold State.admissionPass at h
  generalize s.pendingIds.foldl State.checkReady (s, []) = acc at h hcheck
  obtain ⟨s₁, ready⟩ := acc
  dsimp only at h hcheck
  split_ifs at h
  obtain rfl := Option.some.inj h
  exact hcheck.trans (.of_workloads (foldl_startTask _ _).2.1)

theorem keepsRecords_cancelStart (s : State) (v : String) : KeepsRecords o s (s.cancelStart v) := by
  unfold State.cancelStart
  split
  · exact .refl s
  · have hreq := fun m => KeepsRecords.updateState (o := o) s v .cancellationRequested m
    dsimp only
    split_ifs
    · exact .refl s
    · exact (hreq _).trans (.of_workloads rfl)
    · exact (hreq _).trans ((KeepsRecords.updateState _ v .cancelled _).trans (.of_workloads rfl))

theorem keepsRecords_stealStep {i : ℕ} (h : s.stealStep i = some s') : KeepsRecords o s s' := by
  unfold State.stealStep at h
  obtain ⟨⟨idle, jobId⟩, -, rfl⟩ := Option.map_eq_some_iff.1 h
  refine KeepsRecords.trans (KeepsRecords.of_workloads rfl) ?_
  unfold State.maybeSpeculativeStealStraggler
  dsimp only
  split_ifs
  · split
    · rename_i w _
      exact KeepsRecords.modifyWorkload { s with steals := s.steals.eraseIdx i } w (fun _ => rfl)
        (.inr fun _ => rfl)
    · exact .refl _
  · exact .refl _

theorem keepsRecords_cloneStep {i : ℕ} {now : ℚ} (h : s.cloneStep i now = some s') :
    KeepsRecords o s s' := by
  unfold State.cloneStep at h
  obtain ⟨⟨w, x⟩, -, rfl⟩ := Option.map_eq_some_iff.1 h
  dsimp only
  split
  · rename_i hs
    obtain rfl := executeSpeculativeAttempt_ok hs
    exact .of_workloads rfl
  · exact .of_workloads rfl

/-- Outside the runs only submissions and restarts write records. -/
theorem keepsRecords_outside (hseg : a.segmentOf = none) (hrestart : a.isRestart = false)
    (hsubmit : ∀ spec, a ≠ .submitWorkload spec) (h : step cfg s a = some s') :
    KeepsRecords o s s' := by
  cases a with
  | submitWorkload spec => exact absurd rfl (hsubmit spec)
  | createJob job =>
    obtain rfl := Option.some.inj h
    exact .of_workloads (createJob_cases s job).2
  | admissionPass order => exact keepsRecords_admissionPass h
  | cancelStart w =>
    obtain rfl := Option.some.inj h
    exact keepsRecords_cancelStart s w
  | cancelFinish w =>
    simp only [step, State.cancelFinish] at h
    split_ifs at h
    obtain rfl := Option.some.inj h
    exact KeepsRecords.updateState { s with cancels := s.cancels.erase w } w .cancelled _
  | evictionPass now =>
    obtain rfl := Option.some.inj h
    exact .of_workloads (foldl_handleWorkerLost _ _).1
  | drainStart x =>
    obtain rfl := Option.some.inj h
    exact .of_workloads (drainStart_frame s x).1
  | drainFinish i =>
    obtain ⟨ids, -, rfl⟩ := Option.map_eq_some_iff.1 h
    exact .of_workloads rfl
  | admissionTimeout | workerLost x | registryOp op =>
    obtain rfl := Option.some.inj h
    exact .of_workloads rfl
  | steal i => exact keepsRecords_stealStep h
  | clone i now => exact keepsRecords_cloneStep h
  | restart now => cases hrestart
  | _ => cases hseg

end Outside

/-- **What a step can do to the specification of a workload**: it is submitted, or it continues from
a checkpoint. -/
theorem step_specOf {a : Action} (hs : DrainsPlain s) (hrestart : a.isRestart = false)
    (h : step cfg s a = some s') (v : String) : SpecStep s a s' v := by
  cases hseg : a.segmentOf with
  | none =>
    by_cases hsubmit : ∃ spec, a = .submitWorkload spec
    · obtain ⟨spec, rfl⟩ := hsubmit
      obtain rfl := Option.some.inj h
      rcases submitWorkload_spec s spec v with hv | ⟨hv, hnew, hspec⟩
      · exact .same hv
      · exact .submitted spec rfl hv hnew hspec
    · have hkeeps : KeepsRecords none s s' :=
        keepsRecords_outside hseg hrestart (fun spec ha => hsubmit ⟨spec, ha⟩) h
      exact .same (hkeeps.specs v)
  | some u =>
    cases segment_of_eq hseg with
    | startRun => exact .same ((startRun_spec h).1.specs v)
    | place ranking now execId =>
      obtain ⟨f₀, -, hkeeps, -⟩ := place_spec h
      exact .same (hkeeps.specs v)
    | callEvent i event =>
      obtain ⟨f, d, c, phase, -, rfl⟩ := advanceCall_cases h
      exact .same rfl
    | resume now =>
      obtain ⟨f, d, reply, hpc, -, hans⟩ := resume_answered h
      cases hans with
      | waits r t heq => rw [heq]; exact .same rfl
      | checkpoint r used t hash hreply hgroup hc hhash ha hret hspec =>
        have hv := hspec v
        split_ifs at hv with heq
        · exact .checkpoint u now f d r hash rfl hpc heq hc hhash ha hret hv
        · exact .same hv
      | same ids hspec => exact .same (hspec v)
    | drainResume now =>
      obtain ⟨f, d, r, t, hpc, hcases⟩ := drainResume_answered h
      obtain ⟨ids, hspec, -⟩ := hcases (hs u f d r t hpc)
      exact .same (hspec v)
    | finishRun => exact .same (SameSpecs.of_workloads (finishRun_cases h).2.2.1 v)

/-- What a step does to the frame of a run. -/
inductive FrameStep (s : State) (a : Action) (w : String) (f' : Frame) : Prop
  | carried (f : Frame) (hf : s.frameOf w = some f) (hspec : f'.spec = f.spec)
      (hshape : f'.executionShape = f.executionShape)
      (hcount : f'.requiredWorkerCount = f.requiredWorkerCount)
      (hjob : f'.parentJob = f.parentJob)
  | entered (r : WorkloadRecord) (spec : WorkloadSpec) (ha : a = .startRun w)
      (hr : s.workloads.get? w = some r)
      (hready : (s.dependencyState w r.spec.dependsOn).2 = .ready)
      (hout : s.specWithDependencyOutputs r.spec r.spec.dependsOn = some spec)
      (hspec : f'.spec = spec) (hshape : f'.executionShape = (s.initialFrame w spec).executionShape)
      (hcount : f'.requiredWorkerCount = (s.initialFrame w spec).requiredWorkerCount)
      (hjob : f'.parentJob = (s.initialFrame w spec).parentJob)

theorem frameOf_congr (h : s'.runs.get? w = s.runs.get? w) : s'.frameOf w = s.frameOf w := by
  unfold State.frameOf
  rw [h]

theorem FrameStep.of_goesOn {a : Action} {ids : List String} {f₀ : Frame}
    (hg : GoesOn w s' f ids) (hf₀ : s.frameOf w = some f₀) (hspec : f.spec = f₀.spec)
    (hshape : f.executionShape = f₀.executionShape)
    (hcount : f.requiredWorkerCount = f₀.requiredWorkerCount) (hjob : f.parentJob = f₀.parentJob)
    (hf' : s'.frameOf w = some f') : FrameStep s a w f' := by
  rcases hg with hnone | ⟨f₁, hf₁, hr, -⟩
  · rw [hnone] at hf'
    cases hf'
  · rw [State.frameOf, hf₁] at hf'
    obtain rfl := Option.some.inj hf'
    exact .carried f₀ hf₀ (hr.spec.trans hspec) (hr.executionShape.trans hshape)
      (hr.requiredWorkerCount.trans hcount) (hr.parentJob.trans hjob)

/-- **What a step can do to the frame of a run**: it is carried on, or the run enters its loop. -/
theorem step_frameOf {a : Action} (hs : DrainsPlain s) (hrestart : a.isRestart = false)
    (h : step cfg s a = some s') (hf' : s'.frameOf w = some f') : FrameStep s a w f' := by
  have hkept : s'.runs.get? w = s.runs.get? w → FrameStep s a w f' := by
    intro he
    rw [frameOf_congr he] at hf'
    exact .carried f' hf' rfl rfl rfl rfl
  by_cases hseg : a.segmentOf = some w
  · cases segment_of_eq hseg with
    | startRun =>
      rcases (startRun_spec h).2 with hnone | ⟨r, spec, f₁, hr, hready, hout, hf₁, heq⟩
      · rw [hnone] at hf'
        cases hf'
      · rw [State.frameOf, hf₁] at hf'
        obtain rfl := Option.some.inj hf'
        obtain ⟨h₁, h₂, h₃, h₄, -⟩ := promoteSpare_retries
          ((s.updateState w .validating).updateState w .placing) (s.initialFrame w spec)
        rw [heq]
        exact .entered r spec rfl hr hready hout h₁ h₂ h₃ h₄
    | place ranking now execId =>
      obtain ⟨f₀, hf₀, -, ⟨hnone, -⟩ | ⟨p, rest, -, hrec⟩⟩ := place_spec h
      · rw [hnone] at hf'
        cases hf'
      · obtain ⟨h₁, h₂, h₃, h₄, -⟩ := promoteSpare_retries s f₀
        have hold : s.frameOf w = some f₀ := by rw [State.frameOf, hf₀]
        cases hrec with
        | dispatched d hd =>
          rw [State.frameOf, hd] at hf'
          obtain rfl := Option.some.inj hf'
          exact .carried f₀ hold h₁ h₂ h₃ h₄
        | vanished m missing hmissing ha hgoes => exact .of_goesOn hgoes hold h₁ h₂ h₃ h₄ hf'
    | callEvent i event =>
      obtain ⟨f, d, c, phase, hpc, rfl⟩ := advanceCall_cases h
      rw [State.frameOf, runs_setPc] at hf'
      obtain rfl := Option.some.inj hf'
      exact .carried f (by rw [State.frameOf, hpc]) rfl rfl rfl rfl
    | resume now =>
      obtain ⟨f, d, reply, hpc, -, hans⟩ := resume_answered h
      have hold : s.frameOf w = some f := by rw [State.frameOf, hpc]
      cases hans with
      | waits r t heq =>
        rw [heq, State.frameOf, runs_setPc] at hf'
        obtain rfl := Option.some.inj hf'
        exact .carried f hold rfl rfl rfl rfl
      | checkpoint r u t hash hreply hgroup hc hhash ha hret =>
        rw [frameOf_of_returned hret] at hf'
        cases hf'
      | same ids hspec hgoes => exact .of_goesOn hgoes hold rfl rfl rfl rfl hf'
    | drainResume now =>
      obtain ⟨f, d, r, t, hpc, hcases⟩ := drainResume_answered h
      obtain ⟨ids, -, hgoes, -⟩ := hcases (hs w f d r t hpc)
      exact .of_goesOn hgoes (by rw [State.frameOf, hpc]) rfl rfl rfl rfl hf'
    | finishRun =>
      rw [State.frameOf, (finishRun_cases h).2.1] at hf'
      cases hf'
  · cases step_foreign h hseg hrestart with
    | kept hrun => exact hkept hrun.runs
    | submitted hrun => exact hkept hrun.runs
    | admitted hp hproc hstart =>
      rw [State.frameOf, hstart] at hf'
      cases hf'
    | blocked hp hrun => exact hkept hrun.runs
    | cancelled st hst hrun => exact hkept hrun.runs

end Aidars.Orchestrator
