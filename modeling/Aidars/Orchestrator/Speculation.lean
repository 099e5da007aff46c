import Aidars.Orchestrator.Cancellation

/-!
# Speculative execution

A worker that becomes idle selects a straggler of its job (`maybeSpeculativeStealStraggler`), and a
task is to run a clone of it there. The task builds the placement decision of the clone before it
records the attempt, from a class that the module does not import: `clone_not_recorded` says that
no clone is ever recorded, in whatever state the task runs.
-/

namespace Aidars.Orchestrator

variable {cfg : Config} {s s' : State} {w x : String} {i : ℕ} {now : ℚ}

/-- The step records another attempt of the workload. -/
def RecordsAttempt (w : String) (s s' : State) : Prop :=
  ∃ id ∈ s'.attempts.idsOf w, id ∉ s.attempts.idsOf w

theorem not_recordsAttempt (h : s'.attempts = s.attempts) : ¬ RecordsAttempt w s s' := by
  rintro ⟨id, hid, hnew⟩
  rw [h] at hid
  exact hnew hid

/-- The clone of an executing workload on a registered worker raises before it is recorded. -/
theorem executeSpeculativeAttempt_nameError (hw : s.stateOf w = some .executing)
    (hx : (s.registry.workers.get? x).isSome = true) :
    s.executeSpeculativeAttempt w x now = .error ⟨"PlacementDecision"⟩ := by
  have hname : lookupGlobal "PlacementDecision" = .error ⟨"PlacementDecision"⟩ := by decide
  obtain ⟨r, hr, hstate⟩ := Option.map_eq_some_iff.1 hw
  obtain ⟨info, hinfo⟩ := Option.isSome_iff_exists.1 hx
  unfold State.executeSpeculativeAttempt
  rw [hr, hinfo]
  dsimp only
  rw [if_neg (not_not_intro hstate), hname]
  rfl

/-- **No clone is recorded.** In every state, a clone task of an executing workload ends without an
attempt of it; on a registered worker it ends with a name error. -/
theorem clone_not_recorded (hclone : s.clones[i]? = some (w, x))
    (hw : s.stateOf w = some .executing) :
    ∃ s', step cfg s (.clone i now) = some s' ∧ ¬ RecordsAttempt w s s' ∧
      s'.attempts = s.attempts ∧ s'.clones = s.clones.eraseIdx i ∧
      ((s.registry.workers.get? x).isSome = true →
        s.executeSpeculativeAttempt w x now = .error ⟨"PlacementDecision"⟩) := by
  have hstep : step cfg s (.clone i now) = some { s with clones := s.clones.eraseIdx i } := by
    show s.cloneStep i now = _
    unfold State.cloneStep
    rw [hclone, Option.map_some]
    dsimp only
    split
    · rename_i hok
      rw [executeSpeculativeAttempt_ok hok]
    · rfl
  exact ⟨_, hstep, not_recordsAttempt rfl, rfl, rfl, executeSpeculativeAttempt_nameError hw⟩

/-- Two workloads of a job execute on two workers; the second completes, and the worker it leaves
idle selects the first. -/
def stragglerSample : List Action :=
  ["a", "b"].map (fun x => .registryOp (.registerWorker (sampleWorker x) 0)) ++
    [.createJob { jobId := "j", workloadIds := PySet.ofList ["w", "v"] },
      .submitWorkload { sampleSpec "w" with jobId := some "j" },
      .submitWorkload { sampleSpec "v" with jobId := some "j" },
      .admissionPass ["w", "v"], .startRun "w", .startRun "v",
      .place "w" { sampleRanking with order := ["a"] } 0 "group",
      .place "v" { sampleRanking with order := ["b"] } 0 "group",
      .callEvent "v" 0 (.terminal (some
        { workloadId := "v", workerId := "b", success := true, outputAssetHashes := ∅
          executionDurationSeconds := 0 })), .callEvent "v" 0 .closed, .resume "v" 1, .steal 0]

theorem exists_straggler : ∃ s : State, runSteps (sampleConfig 1) {} stragglerSample = some s ∧
    s.stateOf "w" = some .executing ∧ s.clones = [("w", "b")] := by
  have hrun : (runSteps (sampleConfig 1) {} stragglerSample).map (fun s =>
      (s.stateOf "w", s.clones)) = some (some .executing, [("w", "b")]) := by decide +kernel
  obtain ⟨s, hs, hv⟩ := Option.map_eq_some_iff.1 hrun
  exact ⟨s, hs, Prod.mk.inj hv⟩

/-- The clone of a straggler is not recorded. -/
theorem clone_not_recorded_straggler :
    ∃ s s' : State, runSteps (sampleConfig 1) {} stragglerSample = some s ∧
      s.stateOf "w" = some .executing ∧ s.clones = [("w", "b")] ∧
      step (sampleConfig 1) s (.clone 0 2) = some s' ∧ ¬ RecordsAttempt "w" s s' := by
  obtain ⟨s, hs, hw, hclones⟩ := exists_straggler
  have hclone : s.clones[0]? = some ("w", "b") := by rw [hclones]; rfl
  obtain ⟨s', hstep, hnot, -⟩ := clone_not_recorded hclone hw
  exact ⟨s, s', hs, hw, hclones, hstep, hnot⟩

/-- The clone of a straggler that a run reaches leaves it with its one attempt. -/
theorem straggler_clone_missing :
    ¬ ∀ (cfg : Config) (as : List Action) (s s' : State) (w x : String) (i : ℕ) (now : ℚ),
      runSteps cfg {} as = some s → s.clones[i]? = some (w, x) →
      s.stateOf w = some .executing → step cfg s (.clone i now) = some s' →
      RecordsAttempt w s s' := by
  intro hclaim
  obtain ⟨s, hs, hw, hclones⟩ := exists_straggler
  have hclone : s.clones[0]? = some ("w", "b") := by rw [hclones]; rfl
  cases h : step (sampleConfig 1) s (.clone 0 2) with
  | none =>
    have hsome : (s.cloneStep 0 2).isSome = true := by
      rw [State.cloneStep, Option.isSome_map, hclone]
      rfl
    rw [show s.cloneStep 0 2 = none from h] at hsome
    cases hsome
  | some s' =>
    have hsame : s'.attempts = s.attempts := (cloneStep_cases h).1.attempts
    exact not_recordsAttempt hsame (hclaim _ _ s s' "w" "b" 0 2 hs hclone hw h)

end Aidars.Orchestrator
