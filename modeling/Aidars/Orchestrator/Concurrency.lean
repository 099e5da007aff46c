import Aidars.Orchestrator.Cancellation
import Aidars.Orchestrator.Ownership

/-!
# The concurrency limit of workers

Placement counts the active attempts of a worker and records a new one in the same segment, so the
limit that it checked still holds when the attempt becomes active. All other steps only end
attempts. With the limit of each worker fixed, `concurrency_limit` bounds the active attempts that
name a worker in every state of every run.
-/

namespace Aidars.Orchestrator

open AttemptRegistry (Moves)

variable {cfg : Config} {s s' : State} {w x : String} {a : Action} {f : Frame} {cap : String → ℕ}

/-- The limits that the workers report are the given ones. -/
def FixedLimits (cap : String → ℕ) (s : State) : Prop :=
  ∀ info ∈ s.registry.workers.values, ∀ p ∈ info.resourceProfile,
    p.maxConcurrentWorkloads = cap info.workerId

instance (cap : String → ℕ) (s : State) : Decidable (FixedLimits cap s) := by
  unfold FixedLimits
  infer_instance

/-! ## Placement checks the limit -/

theorem mem_candidateWorkers {info : WorkerInfo} (h : info ∈ s.candidateWorkers f) :
    info ∈ s.registry.workers.values := by
  obtain ⟨hlist, -⟩ := List.mem_filter.1 h
  obtain ⟨e, he, rfl⟩ := List.mem_map.1 hlist
  exact List.mem_map.2 ⟨e, (List.mem_filter.1 he).1, rfl⟩

/-- A profile that passes the gates belongs to a worker below its limit. -/
theorem activeCount_lt_of_eligible {text : TextFunctions} {ctx : PlacementContext}
    {spec : WorkloadSpec} {p : WorkerResourceProfile} (hcap : FixedLimits cap s)
    (hp : p ∈ Placement.buildWorkerProfiles s.attempts (s.candidateWorkers f))
    (he : Placement.eligible text ctx spec p = true) :
    s.attempts.activeCount p.workerId < cap p.workerId := by
  obtain ⟨info, hinfo, hprofile⟩ := List.mem_filterMap.1 hp
  obtain ⟨telemetry, ht, rfl⟩ := Option.map_eq_some_iff.1 hprofile
  have hlt := Placement.active_lt_of_eligible he
  have hmax := hcap info (mem_candidateWorkers hinfo) telemetry ht
  dsimp only at hlt ⊢
  rw [AttemptRegistry.length_listRunningAttemptsForWorker, hmax] at hlt
  exact hlt

/-- **Placement selects workers below their limit.** -/
theorem activeCount_lt_of_choose {ranking : Ranking} {now : ℚ} {ds : List PlacementDecision}
    (hcap : FixedLimits cap s) (h : s.choose cfg w f ranking now = some ds) :
    ∀ d ∈ ds, s.attempts.activeCount d.selectedWorkerId < cap d.selectedWorkerId := by
  intro d hd
  obtain ⟨p, hp, hid, ctx, -, he⟩ := choose_eligible h d hd
  rw [← hid]
  exact activeCount_lt_of_eligible hcap hp he

theorem names_newGroup {execId : String} {p : PlacementDecision} {rest : List PlacementDecision}
    {r : AttemptRecord} (hw : r.workerId = some p.selectedWorkerId)
    (hg : r.executionGroup = State.newGroup f execId (p :: rest)) (hx : r.names x = true) :
    ∃ d ∈ p :: rest, d.selectedWorkerId = x := by
  unfold AttemptRecord.names at hx
  rw [hw, hg, Bool.or_eq_true] at hx
  rcases hx with hx | hx
  · exact ⟨p, List.mem_cons_self, Option.some.inj (of_decide_eq_true hx)⟩
  · unfold State.newGroup at hx
    split_ifs at hx
    · rw [Option.any_some, List.contains_iff_mem] at hx
      exact List.mem_map.1 hx
    · cases hx

theorem activeCount_assignNew {reg : AttemptRegistry} {execId : String} {p : PlacementDecision}
    {rest : List PlacementDecision} (hlt : ∀ d ∈ p :: rest,
      reg.activeCount d.selectedWorkerId < cap d.selectedWorkerId)
    (hle : reg.activeCount x ≤ cap x) :
    (assignNew reg w p (State.newGroup f execId (p :: rest))).activeCount x ≤ cap x := by
  have hcreate :=
    reg.activeCount_createAttempt_le w x (some p) (State.newGroup f execId (p :: rest))
  unfold assignNew AttemptRegistry.markAssigned
  obtain ⟨hone, hzero⟩ := (reg.createAttempt w (some p)
    (State.newGroup f execId (p :: rest))).activeCount_update_le (reg.nextId w) x
    fun r => { r with status := .assigned, workerId := some p.selectedWorkerId }
  by_cases hx : ∃ d ∈ p :: rest, d.selectedWorkerId = x
  · obtain ⟨d, hd, rfl⟩ := hx
    have := hlt d hd
    omega
  · refine (hzero fun r hr ho => ?_).trans (hcreate.trans hle)
    rw [AttemptRegistry.getAttempt_createAttempt, if_pos rfl] at hr
    obtain rfl := Option.some.inj hr
    unfold AttemptRecord.occupies at ho
    rw [Bool.and_eq_true] at ho
    exact absurd (names_newGroup rfl rfl ho.2) hx

theorem names_setGroupState (x : String) (st : GroupState) (r : AttemptRecord) :
    AttemptRecord.names
      { r with
        status := .running
        executionGroup := AttemptRegistry.setGroupState st r.executionGroup } x = r.names x := by
  unfold AttemptRecord.names AttemptRegistry.setGroupState
  cases r.executionGroup <;> rfl

theorem activeCount_launched {execId : String} {p : PlacementDecision}
    {rest : List PlacementDecision}
    (hl : Launched cfg s s' w f p (State.newGroup f execId (p :: rest)))
    (hlt : ∀ d ∈ p :: rest, s.attempts.activeCount d.selectedWorkerId < cap d.selectedWorkerId)
    (hle : s.attempts.activeCount x ≤ cap x) : s'.attempts.activeCount x ≤ cap x := by
  have hassigned : (assignNew s.attempts w p (State.newGroup f execId (p :: rest))).activeCount x ≤
      cap x := activeCount_assignNew hlt hle
  cases hl with
  | dispatched d hpc hid hattempts =>
    rw [hattempts, AttemptRegistry.markRunning]
    refine ((AttemptRegistry.activeCount_update_le _ _ x _).2 fun r hr ho => ?_).trans hassigned
    rw [getAttempt_assignNew, if_pos rfl] at hr
    obtain rfl := Option.some.inj hr
    unfold AttemptRecord.occupies at ho ⊢
    rw [Bool.and_eq_true] at ho ⊢
    refine ⟨rfl, ?_⟩
    rw [← ho.2]
    exact (names_setGroupState x _ _).symm
  | vanished m u hattempts hend =>
    rw [hattempts, AttemptRegistry.markLost]
    refine ((AttemptRegistry.activeCount_update_le _ _ x _).2 fun r hr ho => ?_).trans hassigned
    cases ho

/-! ## The other steps -/

theorem not_occupies {r : AttemptRecord} (h : r.status.isActive = false) :
    r.occupies x = false := by
  unfold AttemptRecord.occupies
  rw [h, Bool.false_and]

theorem activeCount_loses {reg reg' : AttemptRegistry} (h : Moves (Loses reg) reg reg')
    (x : String) : reg'.activeCount x ≤ reg.activeCount x := by
  refine h.activeCount_le fun r r' hR ho => ?_
  rcases hR with rfl | ⟨-, hlost⟩
  · exact ho
  · rw [not_occupies (by rw [hlost]; rfl)] at ho
    cases ho

theorem Settled.not_active {id : String} {st : AttemptStatus} {reg reg' : AttemptRegistry}
    (h : Settled w id reg st reg') : st.isActive = false := by
  cases h <;> rfl

theorem activeCount_settled {id : String} {st : AttemptStatus} {reg reg' : AttemptRegistry}
    (h : Settled w id reg st reg') (x : String) : reg'.activeCount x ≤ reg.activeCount x := by
  refine h.moves.activeCount_le fun r r' hR ho => ?_
  rcases hR with rfl | ⟨-, hst⟩ | ⟨-, hfailed⟩
  · exact ho
  · rw [not_occupies (by rw [hst]; exact h.not_active)] at ho
    cases ho
  · rw [not_occupies (by rw [hfailed]; rfl)] at ho
    cases ho

theorem not_active_restoreAttempts {reg : AttemptRegistry} {id : String} {r : AttemptRecord}
    (hr : (State.restoreAttempts reg).getAttempt id = some r) : r.status.isActive = false := by
  obtain ⟨r₀, -, r₁, -, rfl⟩ := getAttempt_restoreAttempts.1 hr
  unfold State.loseInFlight
  split_ifs with hactive
  · rfl
  · simpa using hactive

theorem activeCount_restored (reg : AttemptRegistry) (x : String) :
    (State.restoreAttempts reg).activeCount x = 0 := by
  unfold AttemptRegistry.activeCount
  rw [List.countP_eq_zero]
  intro r hr
  obtain ⟨k, hk⟩ := Dict.mem_values.1 hr
  rw [not_occupies (not_active_restoreAttempts hk)]
  exact Bool.false_ne_true

/-! ## The limit -/

/-- The workers are within their limits. -/
structure LimitInv (cap : String → ℕ) (s : State) : Prop where
  plain : DrainsPlain s
  limit : ∀ x, s.attempts.activeCount x ≤ cap x

/-- **Every step keeps the workers within their limits.** -/
theorem limitInv_step (hs : LimitInv cap s) (hcap : FixedLimits cap s)
    (h : step cfg s a = some s') : LimitInv cap s' := by
  refine ⟨step_drainsPlain hs.plain h, fun x => ?_⟩
  have hle := hs.limit x
  cases hrestart : a.isRestart with
  | true =>
    obtain ⟨now, rfl, rfl⟩ := restart_of_step hrestart h
    show (State.restoreAttempts s.attempts).activeCount x ≤ cap x
    rw [activeCount_restored]
    exact Nat.zero_le _
  | false =>
    cases hseg : a.segmentOf with
    | none => exact (activeCount_loses (step_attempts h hseg hrestart) x).trans hle
    | some v =>
      cases segment_attempts hs.plain hseg h with
      | same hattempts =>
        rw [hattempts]
        exact hle
      | launched ranking now execId f₀ f p rest ha hchoose hl =>
        -- the limits were checked against the attempts of this very state
        have hcap' : FixedLimits cap (s.promoteSpare f₀).1 := by
          unfold FixedLimits
          rw [(promoteSpare_frame s f₀).2.1]
          exact hcap
        refine activeCount_launched hl (activeCount_lt_of_choose hcap' hchoose) ?_
        rw [attempts_promoteSpare]
        exact hle
      | settled f d st hat hsettled => exact (activeCount_settled hsettled x).trans hle

/-- **The concurrency limit.** With the limit of each worker fixed, in every state of every run the
active attempts that name a worker, as their own or as a member of their group, are at most as
many as its limit. -/
theorem concurrency_limit {as : List Action}
    (h : Along (step cfg) (fun s _ => FixedLimits cap s) {} as) (hrun : runSteps cfg {} as = some s)
    (x : String) : (s.attempts.listRunningAttemptsForWorker x).length ≤ cap x := by
  have hinit : LimitInv cap {} := by
    refine ⟨fun w f d r t hpc => ?_, fun x => Nat.zero_le _⟩
    cases hpc
  have hs : LimitInv cap s := h.invariant (fun _ _ _ => limitInv_step) hinit hrun
  rw [AttemptRegistry.length_listRunningAttemptsForWorker]
  exact hs.limit x

/-- A workload runs on a worker with the default limit. -/
theorem concurrency_limit_running :
    ∃ s : State, runSteps (sampleConfig 1) {} (dispatchSample ["a"] "w") = some s ∧
      (s.attempts.listRunningAttemptsForWorker "a").map (·.attemptId) = ["w#1"] ∧
      (s.attempts.listRunningAttemptsForWorker "a").length ≤ 10 := by
  have hrun : (runSteps (sampleConfig 1) {} (dispatchSample ["a"] "w")).map
      (fun s => (s.attempts.listRunningAttemptsForWorker "a").map (·.attemptId)) =
      some ["w#1"] := by decide +kernel
  obtain ⟨s, hs, hids⟩ := Option.map_eq_some_iff.1 hrun
  have hlimit : Along (step (sampleConfig 1)) (fun s _ => FixedLimits (fun _ => 10) s) {}
      (dispatchSample ["a"] "w") := by decide +kernel
  exact ⟨s, hs, hids, concurrency_limit hlimit hs "a"⟩

end Aidars.Orchestrator
