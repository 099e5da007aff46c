import Aidars.Orchestrator.Cancellation
import Aidars.Orchestrator.Dispatches
import Aidars.Orchestrator.Jobs

/-!
# Attempts survive a restart

The execution group of an attempt is changed in place, without the checks of its construction. They
hold nevertheless in every reachable state (`GroupInv`): placement gives a group the required number
of distinct workers, and the workers that are marked unavailable are members, whoever marks them.
So an attempt is read back as it was written, or not, according to its numbers alone
(`attempt_durable_iff`): a result or a decision with an infinite number is written as `null`, and
then the row of the attempt is not accepted.
-/

namespace Aidars.Orchestrator

open AttemptRegistry (Marked)

variable {cfg : Config} {s s' : State} {w v x : String} {a : Action} {f : Frame} {d : Dispatch}
  {reg reg' : AttemptRegistry} {r r' : AttemptRecord} {g : ExecutionGroup}

/-! ## Valid groups -/

theorem isValid_iff : g.isValid = true ↔
    (2 ≤ g.requiredWorkerCount ∧ g.requiredWorkerCount ≤ 64) ∧
      g.workerIds.length = g.requiredWorkerCount ∧ g.workerIds.Nodup ∧
      (∀ x ∈ g.unavailableWorkerIds, x ∈ g.workerIds) ∧
      (g.placementDecisions = [] ∨ g.placementDecisions.map (·.selectedWorkerId) =
        g.workerIds) := by
  simp only [ExecutionGroup.isValid, Bool.and_eq_true, Bool.or_eq_true, decide_eq_true_eq,
    List.all_eq_true, List.contains_iff_mem, and_assoc]
  exact Iff.rfl

/-- The group of an attempt passes its checks, and the worker of the attempt is a member. -/
structure GroupOk (r : AttemptRecord) : Prop where
  valid : ∀ g ∈ r.executionGroup, g.isValid = true
  worker : ∀ x, r.workerId = some x → ∀ g ∈ r.executionGroup, x ∈ g.workerIds

/-- Every worker that the attempt names is a member of its group. -/
theorem GroupOk.member (h : GroupOk r) (hx : r.names x = true) (hg : g ∈ r.executionGroup) :
    x ∈ g.workerIds := by
  rw [AttemptRecord.names, Bool.or_eq_true] at hx
  rcases hx with hx | hx
  · exact h.worker x (of_decide_eq_true hx) g hg
  · rw [Option.mem_def.1 hg, Option.any_some] at hx
    exact List.contains_iff_mem.1 hx

theorem groupOk_setGroupState (h : GroupOk r) (st : GroupState) :
    ∀ g ∈ AttemptRegistry.setGroupState st r.executionGroup, g.isValid = true ∧
      ∀ x, r.workerId = some x → x ∈ g.workerIds := by
  intro g hg
  obtain ⟨g₀, hg₀, rfl⟩ := Option.map_eq_some_iff.1 hg
  exact ⟨isValid_iff.2 (isValid_iff.1 (h.valid g₀ hg₀)), fun x hx => h.worker x hx g₀ hg₀⟩

theorem GroupOk.write (h : GroupOk r) (m : Mark) (hm : ∀ why ids, m = .lost why ids →
    ∀ g ∈ r.executionGroup, ∀ x ∈ ids, x ∈ g.workerIds) : GroupOk (m.write r) := by
  cases m with
  | succeeded result =>
    have hst := groupOk_setGroupState h .completed
    exact ⟨fun g hg => (hst g hg).1, fun x hx g hg => (hst g hg).2 x hx⟩
  | failed category reason result =>
    have hst := groupOk_setGroupState h .failed
    exact ⟨fun g hg => (hst g hg).1, fun x hx g hg => (hst g hg).2 x hx⟩
  | lost reason ids =>
    refine ⟨fun g hg => ?_, fun x hx g hg => ?_⟩
    · obtain ⟨g₀, hg₀, rfl⟩ := Option.map_eq_some_iff.1 hg
      obtain ⟨hcount, hlen, hnodup, hun, hdec⟩ := isValid_iff.1 (h.valid g₀ hg₀)
      refine isValid_iff.2 ⟨hcount, hlen, hnodup, fun x hx => ?_, hdec⟩
      rcases PySet.mem_foldl_insert.1 hx with hx | hx
      · exact hun x hx
      · exact hm reason ids rfl g₀ hg₀ x hx
    · obtain ⟨g₀, hg₀, rfl⟩ := Option.map_eq_some_iff.1 hg
      exact h.worker x hx g₀ hg₀

/-! ## Placement -/

theorem choose_distinct {ranking : Ranking} {now : ℚ} {ds : List PlacementDecision}
    (h : s.choose cfg w f ranking now = some ds) (hshape : f.executionShape = .distributedNative) :
    ds.length = f.requiredWorkerCount ∧ (ds.map (·.selectedWorkerId)).Nodup := by
  unfold State.choose at h
  dsimp only at h
  rw [if_pos hshape] at h
  exact Placement.evaluateGroup_distinct h

theorem groupOk_assigned {ranking : Ranking} {now : ℚ} {execId : String} {p : PlacementDecision}
    {rest : List PlacementDecision} (reg : AttemptRegistry)
    (hchoose : s.choose cfg w f ranking now = some (p :: rest))
    (hcount : f.executionShape = .distributedNative →
      2 ≤ f.requiredWorkerCount ∧ f.requiredWorkerCount ≤ 64) :
    GroupOk (assignedRecord reg w p (State.newGroup f execId (p :: rest))) := by
  have hgroup : ∀ g ∈ State.newGroup f execId (p :: rest), g.isValid = true ∧
      p.selectedWorkerId ∈ g.workerIds := by
    intro g hg
    unfold State.newGroup at hg
    split_ifs at hg with hshape
    · obtain rfl := Option.some.inj hg
      obtain ⟨hlen, hnodup⟩ := choose_distinct hchoose hshape
      refine ⟨isValid_iff.2 ⟨hcount hshape, ?_, hnodup, fun x hx => ?_, .inr rfl⟩,
        List.mem_cons_self⟩
      · rw [List.length_map, hlen]
      · exact absurd hx (PySet.notMem_empty x)
    · cases hg
  refine ⟨fun g hg => (hgroup g hg).1, fun x hx g hg => ?_⟩
  obtain rfl := Option.some.inj hx
  exact (hgroup g hg).2

theorem GroupOk.opened {r₀ : AttemptRecord} {ids : List String} (h : GroupOk r₀)
    (hids : ∀ g ∈ r₀.executionGroup, g.workerIds = ids) (hopen : Opened r₀ ids r) : GroupOk r := by
  cases hopen with
  | running =>
    have hst := groupOk_setGroupState h .running
    exact ⟨fun g hg => (hst g hg).1, fun x hx g hg => (hst g hg).2 x hx⟩
  | lost m missing hmissing =>
    refine h.write _ fun why ids' he g hg x hx => ?_
    cases he
    rw [hids g hg]
    exact hmissing x hx

/-! ## The invariant -/

/-- Jobs are valid, runs that place groups place groups of a valid size, and the groups of all
attempts are valid. -/
structure GroupInv (s : State) : Prop where
  dispatches : DispatchInv s
  jobs : ∀ j job, s.jobs.get? j = some job → job.Valid
  frames : ∀ w f, s.frameOf w = some f → f.executionShape = .distributedNative →
    2 ≤ f.requiredWorkerCount ∧ f.requiredWorkerCount ≤ 64
  records : ∀ id r, s.attempts.getAttempt id = some r → GroupOk r

theorem groupInv_init : GroupInv {} := by
  refine ⟨dispatchInv_init, fun j job hj => ?_, fun w f hf => ?_, fun id r hr => ?_⟩
  · cases hj
  · cases hf
  · cases hr

theorem jobsValid_step (hs : GroupInv s) (h : step cfg s a = some s') {j : String} {job : JobRecord}
    (hjob : s'.jobs.get? j = some job) : job.Valid := by
  cases step_jobs h j with
  | same he => exact hs.jobs j job (he ▸ hjob)
  | created job₀ job' ha hj hnew hok he =>
    obtain rfl := Option.some.inj (hjob.symm.trans he)
    exact .of_create hok
  | promoted v f hf he =>
    rw [he] at hjob
    rcases promoteSpare_cases s f with ⟨hp, -⟩ | ⟨j', job', sel, -, -, hjob', -, hp⟩
    · rw [hp] at hjob
      exact hs.jobs j job hjob
    · rw [hp, Dict.get?_set] at hjob
      split_ifs at hjob
      · obtain rfl := Option.some.inj hjob
        exact JobRecord.valid_maybePromoteSpareWorker (hs.jobs j' job' hjob')
      · exact hs.jobs j job hjob
  | restarted ha he =>
    rw [he] at hjob
    obtain ⟨job₀, -, hjob⟩ := Option.bind_eq_some_iff.1 hjob
    obtain ⟨-, hvalid, rfl⟩ := StateStore.reloadJob_eq_some_iff.1 hjob
    exact StateStore.valid_storedJob hvalid

theorem frames_step (hs : GroupInv s) (h : step cfg s a = some s') (hf : s'.frameOf w = some f)
    (hshape : f.executionShape = .distributedNative) :
    2 ≤ f.requiredWorkerCount ∧ f.requiredWorkerCount ≤ 64 := by
  cases hrestart : a.isRestart with
  | true =>
    obtain ⟨now, rfl, rfl⟩ := restart_of_step hrestart h
    cases hf
  | false =>
    cases step_frameOf hs.dispatches.plain hrestart h hf with
    | carried f₀ hf₀ hspec hsh hcount hjob =>
      rw [hcount]
      exact hs.frames w f₀ hf₀ (hsh.symm.trans hshape)
    | entered r spec ha hr hready hout hspec hsh hcount hjob =>
      rw [hsh] at hshape
      rw [hcount]
      unfold State.initialFrame at hshape ⊢
      dsimp only at hshape ⊢
      cases hparent : (spec.jobId.filter (· ≠ "")).bind s.jobs.get? with
      | none =>
        rw [hparent] at hshape
        cases hshape
      | some job =>
        rw [hparent] at hshape
        obtain ⟨j, -, hj⟩ := Option.bind_eq_some_iff.1 hparent
        have hshape : job.executionShape = .distributedNative := hshape
        have hvalid := (hs.jobs j job hj).2
        rw [if_pos hshape] at hvalid
        exact hvalid.2

/-- The workers that the group of a dispatched attempt records unavailable are workers of the
dispatch. -/
theorem GroupInv.recorded_mem (hs : GroupInv s) (hat : AtAttempt s w f d)
    (h : s.RecordsUnavailable d.attemptId x) : x ∈ d.workerIds := by
  obtain ⟨r, g, hr, hg, hx⟩ := h
  obtain ⟨r₀, hr₀, -, hgroup⟩ := (hs.dispatches.own w f d hat).recorded
  obtain rfl := Option.some.inj (hr.symm.trans hr₀)
  rw [hg] at hgroup
  obtain ⟨g₁, hg₁, hids⟩ := Option.map_eq_some_iff.1 hgroup.symm
  have hmember := (isValid_iff.1 ((hs.records _ r hr).valid g hg)).2.2.2.1 x hx
  unfold Dispatch.workerIds selectedIds
  rw [hg₁]
  dsimp only
  rw [hids]
  exact hmember

theorem groupOk_answered {reply : Reply} (hs : GroupInv s) (hat : AtAttempt s w f d)
    (hreports : ∀ x, reply.Reports x → x ∈ d.workerIds)
    (hmarked : Marked (Cause s w d reply) s.attempts reg) :
    ∀ id r, reg.getAttempt id = some r → GroupOk r := by
  have hok := hs.dispatches.own w f d hat
  -- along the marks the dispatch still agrees with its attempt
  have hkept : DispatchOk reg w d ∧ ∀ id r, reg.getAttempt id = some r → GroupOk r := by
    refine hmarked.invariant (K := fun reg => DispatchOk reg w d ∧
      ∀ id r, reg.getAttempt id = some r → GroupOk r) ?_ ⟨hok, hs.records⟩
    rintro reg id m ⟨hd, hrecords⟩ hcause
    refine ⟨hd.of_marked (.single hcause), fun id' r' hr' => ?_⟩
    rw [AttemptRegistry.getAttempt_mark] at hr'
    split_ifs at hr' with hid
    · obtain ⟨r, hr, rfl⟩ := Option.map_eq_some_iff.1 hr'
      refine (hrecords id r hr).write m fun why ids he g hg x hx => ?_
      cases hcause with
      | succeeded => cases he
      | failed => cases he
      | superseded => cases he
      | lost m' ids' hids =>
        cases he
        have hmember : x ∈ d.workerIds → x ∈ g.workerIds := fun hx =>
          (hrecords _ r hr).member (hd.names hr hx) hg
        rcases hids x hx with hx | hx | ⟨a, g₀, ha, hg₀, hx⟩
        · exact hmember hx
        · exact hmember (hreports x hx)
        · exact hmember (hs.recorded_mem hat ⟨a, g₀, ha, hg₀, hx⟩)
    · exact hrecords id' r' hr'
  exact hkept.2

/-- The marks of a lost worker keep all groups valid. -/
theorem groupOk_evicted (hs : GroupInv s) (hmarked : Marked Evicts s.attempts reg) :
    ∀ id r, reg.getAttempt id = some r → GroupOk r := by
  have hkept : FiledIds reg ∧ ∀ id r, reg.getAttempt id = some r → GroupOk r := by
    refine hmarked.invariant (K := fun reg => FiledIds reg ∧
      ∀ id r, reg.getAttempt id = some r → GroupOk r) ?_ ⟨hs.dispatches.filed, hs.records⟩
    rintro reg id m ⟨hfiled, hrecords⟩ hev
    refine ⟨hfiled.of_marked (.single hev), fun id' r' hr' => ?_⟩
    rw [AttemptRegistry.getAttempt_mark] at hr'
    split_ifs at hr' with hid
    · obtain ⟨r, hr, rfl⟩ := Option.map_eq_some_iff.1 hr'
      obtain ⟨x, why, rfl, hnames⟩ := hev
      refine (hrecords id r hr).write _ fun why' ids he g hg y hy => ?_
      cases he
      obtain rfl := List.mem_singleton.1 hy
      exact (hrecords id r hr).member (hnames hfiled r hr) hg
    · exact hrecords id' r' hr'
  exact hkept.2

theorem groupOk_restored (hr : GroupOk r) (h : StateStore.reloadAttempt r = some r') :
    GroupOk (State.loseInFlight r') := by
  obtain ⟨hworker, -, hmembers, hvalid⟩ := StateStore.reloadAttempt_workers h
  have hok : GroupOk r' := by
    refine ⟨hvalid, fun x hx g hg => ?_⟩
    rw [Option.mem_def.1 hg] at hmembers
    obtain ⟨g₀, hg₀, hids⟩ := Option.map_eq_some_iff.1 hmembers.symm
    have hids : g₀.workerIds = g.workerIds := hids
    rw [← hids]
    exact hr.worker x (hworker ▸ hx) g₀ hg₀
  unfold State.loseInFlight
  split_ifs
  · have hst := groupOk_setGroupState hok .lost
    exact ⟨fun g hg => (hst g hg).1, fun x hx g hg => (hst g hg).2 x hx⟩
  · exact hok

theorem records_step (hs : GroupInv s) (h : step cfg s a = some s') :
    ∀ id r, s'.attempts.getAttempt id = some r → GroupOk r := by
  cases step_attemptStep hs.dispatches h with
  | placed v ranking now execId f₀ p rest ha hpc hchoose hrec =>
    obtain ⟨-, hshape, hcount, -⟩ := promoteSpare_retries s f₀
    have hsize := hs.frames v f₀ (by rw [State.frameOf, hpc])
    rw [← hshape, ← hcount] at hsize
    obtain ⟨r, hopen, hget⟩ := getAttempt_recorded hrec
    intro id r' hr'
    rw [hget] at hr'
    split_ifs at hr' with hid
    · obtain rfl := Option.some.inj hr'
      refine (groupOk_assigned _ hchoose hsize).opened (fun g hg => ?_) hopen
      have hg : State.newGroup (s.promoteSpare f₀).2 execId (p :: rest) = some g := hg
      rw [hg]
      rfl
    · rw [attempts_promoteSpare] at hr'
      exact hs.records id r' hr'
  | restarted ha hattempts hruns =>
    intro id r' hr'
    rw [hattempts] at hr'
    obtain ⟨r, hr, r₁, hr₁, rfl⟩ := getAttempt_restoreAttempts.1 hr'
    exact groupOk_restored (hs.records id r hr) hr₁
  | answered v f₀ d₀ reply ha hat hreports hmarked =>
    exact groupOk_answered hs hat hreports hmarked
  | evicted ha hmarked => exact groupOk_evicted hs hmarked
  | same hattempts =>
    rw [hattempts]
    exact hs.records

theorem groupInv_step (hs : GroupInv s) (h : step cfg s a = some s') : GroupInv s' :=
  ⟨dispatchInv_step hs.dispatches h, fun _ _ hjob => jobsValid_step hs h hjob,
    fun _ _ hf hshape => frames_step hs h hf hshape, records_step hs h⟩

/-- The row of the attempt is accepted and gives the attempt back exactly when it is durable; its
group passes its own checks. -/
def RoundTrips (r : AttemptRecord) : Prop :=
  (∀ g ∈ r.executionGroup, g.isValid = true) ∧ (StateStore.reloadAttempt r = some r ↔ r.Durable)

theorem GroupOk.roundTrips (h : GroupOk r) : RoundTrips r :=
  ⟨h.valid, StateStore.reloadAttempt_eq_self_iff.trans (and_iff_left h.valid)⟩

/-- A job of one workload that two workers execute together. -/
def groupJob : JobRecord where
  jobId := "j"
  workloadIds := PySet.ofList ["w"]
  executionShape := .distributedNative
  requiredWorkerCount := 2

/-- The dispatch of a group, one worker of which is lost. -/
def groupSample : List Action :=
  ["a", "b"].map (fun x => .registryOp (.registerWorker (sampleWorker x) 0)) ++
    [.createJob groupJob, .submitWorkload { sampleSpec "w" with jobId := some "j" },
      .admissionPass ["w"], .startRun "w", .place "w" sampleRanking 0 "group", .workerLost "b"]

end Aidars.Orchestrator
