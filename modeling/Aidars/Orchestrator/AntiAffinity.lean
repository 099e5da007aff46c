import Aidars.Orchestrator.Groups
import Aidars.Orchestrator.Placements

/-!
# Hard anti-affinity

Workloads of one affinity group that must be kept apart are placed on workers that no other of them
uses. Placement knows of the others what their records show, which is the first worker of the last
decision. Along waits, retries, restarts and clones that is the worker of their active attempts
(`PlacedInv`), so two workloads share a worker only if one of them is executed by a group: the other
members of the group are not seen. Along runs in which no placement is offered such a member
(`SeesMembers`) the workloads of the group stay apart (`hard_anti_affinity`).
-/

namespace Aidars.Orchestrator

variable {cfg : Config} {s s' : State} {w v x g : String} {a : Action} {f : Frame} {d : Dispatch}
  {r : AttemptRecord}

/-! ## The property -/

/-- The workload must not share a worker with the others of the affinity group. A specification with
a mode is accepted only with a group that is not the empty text. -/
def KeepsApart (g : String) (spec : WorkloadSpec) : Prop :=
  spec.affinityGroupId = some g ∧ g ≠ "" ∧ spec.affinityMode = .differentWorker ∧
    spec.affinityHard = true

instance (g : String) (spec : WorkloadSpec) : Decidable (KeepsApart g spec) := by
  unfold KeepsApart
  infer_instance

/-- An active attempt of the workload names the worker. -/
def State.Uses (s : State) (w x : String) : Prop :=
  ∃ r ∈ s.attempts.listAttemptsForWorkload w, r.occupies x = true

instance (s : State) (w x : String) : Decidable (s.Uses w x) := by
  unfold State.Uses
  infer_instance

/-- No two workloads of the affinity group use the same worker. -/
def Apart (g : String) (s : State) : Prop :=
  ∀ v w x, v ≠ w → (∃ spec ∈ s.specOf v, KeepsApart g spec) →
    (∃ spec ∈ s.specOf w, KeepsApart g spec) → ¬ (s.Uses v x ∧ s.Uses w x)

/-! ## The guard -/

/-- The identifiers of the workers that a placement considers. -/
def State.candidateIds (s : State) (f : Frame) : List String :=
  ((s.promoteSpare f).1.candidateWorkers (s.promoteSpare f).2).map (·.workerId)

/-- A placement of the affinity group is not offered a member of an active execution group of
another workload of the affinity group, but for the worker that the attempt is filed under. -/
def SeesMembers (g : String) (s : State) : Action → Prop
  | .place w _ _ _ => ∀ f ∈ s.frameOf w, KeepsApart g f.spec →
      ∀ other ∈ s.workloads.values, other.spec.workloadId ≠ w → KeepsApart g other.spec →
        ∀ r ∈ s.attempts.listAttemptsForWorkload other.spec.workloadId, r.status.isActive = true →
          ∀ group ∈ r.executionGroup, ∀ x ∈ group.workerIds,
            r.workerId ≠ some x → x ∉ s.candidateIds f
  | _ => True

instance (g : String) (s : State) (a : Action) : Decidable (SeesMembers g s a) := by
  apply a.casesOn (motive := fun a => Decidable (SeesMembers g s a)) <;> intros <;>
    unfold SeesMembers <;> infer_instance

/-! ## What placement sees -/

/-- A worker that a hard different-worker workload is placed on is a candidate, and not the worker
that another workload of the affinity group shows. -/
theorem unused_of_choose {ranking : Ranking} {now : ℚ} {ds : List PlacementDecision}
    (hapart : KeepsApart g f.spec) (h : s.choose cfg w f ranking now = some ds) :
    ∀ p ∈ ds, p.selectedWorkerId ∈ (s.candidateWorkers f).map (·.workerId) ∧
      p.selectedWorkerId ∉ s.groupWorkers w f.spec := by
  intro p hp
  obtain ⟨profile, hprofile, hid, ctx, hgroup, helig⟩ := choose_eligible h p hp
  obtain ⟨info, hinfo, hprofile⟩ := List.mem_filterMap.1 hprofile
  obtain ⟨telemetry, -, rfl⟩ := Option.map_eq_some_iff.1 hprofile
  dsimp only at hid
  refine ⟨List.mem_map.2 ⟨info, hinfo, hid⟩, fun hused => ?_⟩
  obtain ⟨-, -, hmode, hhard⟩ := hapart
  have hne : ctx.groupWorkers ≠ ∅ := by
    intro he
    rw [← hgroup, he] at hused
    exact PySet.notMem_empty _ hused
  have hgate := Placement.gate_of_eligible helig (List.mem_cons_self ..)
  unfold Placement.affinityMatch at hgate
  dsimp only at hgate
  rw [if_neg hne, hmode, hhard, hgroup, hid] at hgate
  simp [hused] at hgate

theorem mem_groupWorkers {spec other : WorkloadSpec} {p : PlacementDecision}
    (hfiled : Filed s) (hapart : KeepsApart g spec) (hother : s.specOf v = some other)
    (happart : KeepsApart g other) (hne : v ≠ w) (hp : s.placementOf v = some p) :
    p.selectedWorkerId ∈ s.groupWorkers w spec := by
  obtain ⟨record, hrecord, hp⟩ := Option.bind_eq_some_iff.1 hp
  have hspec : record.spec = other := by
    rw [State.specOf, hrecord] at hother
    exact Option.some.inj hother
  have hid := (hfiled.2.record v other hother).1
  unfold State.groupWorkers
  rw [if_pos (by rw [hapart.1, Option.any_some]; exact decide_eq_true hapart.2.1)]
  refine PySet.mem_ofList.2 (List.mem_filterMap.2 ⟨record, Dict.mem_values.2 ⟨v, hrecord⟩, ?_⟩)
  rw [if_pos, hp, Option.map_some]
  rw [hspec, hid]
  exact ⟨hne, happart.1.trans hapart.1.symm⟩

theorem keepsApart_congr {spec spec' : WorkloadSpec} (h : SameButInputs spec spec') :
    KeepsApart g spec' ↔ KeepsApart g spec := by
  rw [KeepsApart, KeepsApart, h]

/-! ## Attempts in use -/

/-- The dispatch that a used worker is in use for. -/
theorem State.Uses.atAttempt (hs : PlacedInv s) (hu : s.Uses v x) :
    ∃ id r f d, s.attempts.getAttempt id = some r ∧ r.occupies x = true ∧
      id ∈ s.attempts.idsOf v ∧ AtAttempt s v f d ∧ d.attemptId = id := by
  obtain ⟨r, hr, hocc⟩ := hu
  obtain ⟨id, hid, hget⟩ := List.mem_filterMap.1 hr
  have hactive : r.status.isActive = true := by
    unfold AttemptRecord.occupies at hocc
    exact (Bool.and_eq_true _ _ ▸ hocc).1
  obtain ⟨u, f, d, hat, hd⟩ := hs.active id r hget hactive
  obtain ⟨n, hn⟩ := (hs.dispatches.own u f d hat).id
  obtain ⟨m, hm⟩ := hs.lists v id hid
  obtain ⟨rfl, -⟩ := makeAttemptId_inj (hn.symm.trans (hd.trans hm))
  exact ⟨id, r, f, d, hget, hocc, hid, hat, hd⟩

theorem uses_step (hs : PlacedInv s) (hs' : PlacedInv s') (hrestart : a.isRestart = false)
    (h : step cfg s a = some s') (hu : s'.Uses v x) : s.Uses v x ∨
      ∃ ranking now execId f₀ p rest, a = .place v ranking now execId ∧
        s.runs.get? v = some (.lockWait f₀) ∧
        (s.promoteSpare f₀).1.choose cfg v (s.promoteSpare f₀).2 ranking now = some (p :: rest) ∧
        ∃ p' ∈ p :: rest, p'.selectedWorkerId = x := by
  obtain ⟨id, r, f, d, hget, hocc, hid, hat, hd⟩ := hu.atAttempt hs'
  have hactive : r.status.isActive = true ∧ r.names x = true := by
    unfold AttemptRecord.occupies at hocc
    exact Bool.and_eq_true _ _ ▸ hocc
  have hkept : s.attempts.getAttempt id = some r → id ∈ s.attempts.idsOf v → s.Uses v x :=
    fun hr hin => ⟨r, List.mem_filterMap.2 ⟨id, hin, hr⟩, hocc⟩
  cases step_attemptStep hs.dispatches h with
  | placed u ranking now execId f₀ p rest ha hpc hchoose hrec =>
    obtain ⟨r₀, hopen, hnew⟩ := getAttempt_recorded hrec
    rw [hnew, attempts_promoteSpare] at hget
    rw [idsOf_recorded hrec, attempts_promoteSpare] at hid
    split_ifs at hget with hnext
    · obtain rfl := Option.some.inj hget
      obtain ⟨n, hn⟩ := (hs'.dispatches.own v f d hat).id
      obtain ⟨rfl, -⟩ := makeAttemptId_inj (hn.symm.trans (hd.trans hnext))
      refine .inr ⟨ranking, now, execId, f₀, p, rest, ha, hpc, hchoose, ?_⟩
      have hnames : (assignedRecord (s.promoteSpare f₀).1.attempts v p
          (State.newGroup (s.promoteSpare f₀).2 execId (p :: rest))).names x = true := by
        rw [← hopen.fixed.names x]
        exact hactive.2
      exact names_newGroup rfl rfl hnames
    · refine .inl (hkept hget ?_)
      split_ifs at hid with hv
      · rcases List.mem_append.1 hid with hid | hid
        · rw [hv]
          exact hid
        · exact absurd (List.mem_singleton.1 hid) hnext
      · exact hid
  | restarted ha => rw [hrestart] at ha; cases ha
  | answered u f₀ d₀ reply ha hat hreports hmarked =>
    rw [hmarked.idsOf] at hid
    exact .inl (hkept (active_of_marked hmarked hget hactive.1) hid)
  | evicted ha hmarked =>
    rw [hmarked.idsOf] at hid
    exact .inl (hkept (active_of_marked hmarked hget hactive.1) hid)
  | same hattempts =>
    rw [hattempts] at hid hget
    exact .inl (hkept hget hid)

theorem keepsApart_step (hs : PlacedInv s) (hrestart : a.isRestart = false)
    (h : step cfg s a = some s') (hf : s.frameOf v = some f)
    (hapart : ∃ spec ∈ s'.specOf v, KeepsApart g spec) :
    ∃ spec, s.specOf v = some spec ∧ KeepsApart g spec := by
  obtain ⟨spec', hspec', hapart⟩ := hapart
  obtain ⟨spec, hspec, hsame⟩ := hs.carries v f hf
  refine ⟨spec, hspec, ?_⟩
  cases step_specOf hs.filed.1 hrestart h v with
  | same he =>
    obtain rfl := Option.some.inj (hspec.symm.trans (he.symm.trans hspec'))
    exact hapart
  | submitted spec₁ ha hv hnew he =>
    rw [hspec] at hnew
    cases hnew
  | checkpoint u now f₁ d r hash ha hpc hv hc hhash hattempts hret he =>
    have hframe : s.frameOf u = some f₁ := by rw [State.frameOf, hpc]
    obtain rfl : v = u := hv.trans (hs.filed.2.frame u f₁ hframe).1
    obtain rfl := Option.some.inj (hf.symm.trans hframe)
    rw [hspec, Option.map_some] at he
    obtain rfl := Option.some.inj (he.symm.trans hspec')
    exact (keepsApart_congr hsame).1 hapart

/-! ## Runs -/

/-- The invariant of hard anti-affinity. -/
structure ApartInv (g : String) (s : State) : Prop where
  placed : PlacedInv s
  apart : Apart g s

theorem frameOf_of_atAttempt (hat : AtAttempt s w f d) : s.frameOf w = some f := by
  rcases hat with hat | ⟨r, t, hat⟩ <;> rw [State.frameOf, hat]

/-- A worker that placement has just selected is not used by another workload of the group. -/
theorem unused_of_place (hs : PlacedInv s) {ranking : Ranking} {now : ℚ} {execId : String}
    {f₀ : Frame} {ds : List PlacementDecision} {p : PlacementDecision} {other : WorkloadSpec}
    (hg : SeesMembers g s (.place w ranking now execId)) (hpc : s.runs.get? w = some (.lockWait f₀))
    (hchoose : (s.promoteSpare f₀).1.choose cfg w (s.promoteSpare f₀).2 ranking now = some ds)
    (hp : p ∈ ds) (hapart : KeepsApart g f₀.spec) (hne : v ≠ w) (hother : s.specOf v = some other)
    (hotherApart : KeepsApart g other) : ¬ s.Uses v p.selectedWorkerId := by
  intro hu
  have hspec := (promoteSpare_retries s f₀).1
  obtain ⟨hcand, hunseen⟩ := unused_of_choose (hspec ▸ hapart) hchoose p hp
  obtain ⟨id, r, f, d, hget, hocc, hid, hat, hd⟩ := hu.atAttempt hs
  obtain ⟨hactive, hnames⟩ : r.status.isActive = true ∧ r.names p.selectedWorkerId = true := by
    unfold AttemptRecord.occupies at hocc
    exact Bool.and_eq_true _ _ ▸ hocc
  obtain ⟨r₁, hr₁, hworker, -⟩ := (hs.dispatches.own v f d hat).recorded
  rw [hd, hget] at hr₁
  obtain rfl := Option.some.inj hr₁
  by_cases hleader : r.workerId = some p.selectedWorkerId
  · -- the other workload shows this worker
    have hx : d.decision.selectedWorkerId = p.selectedWorkerId :=
      Option.some.inj (hworker.symm.trans hleader)
    have hseen := mem_groupWorkers hs.filed hapart hother hotherApart hne (hs.shown v f d hat)
    rw [hx] at hseen
    apply hunseen
    unfold State.groupWorkers at hseen ⊢
    rw [(promoteSpare_frame s f₀).1, hspec]
    exact hseen
  · obtain ⟨record, hrecord, rfl⟩ := Option.map_eq_some_iff.1 hother
    have hrid := (hs.filed.2.record v record.spec hother).1
    have hlist : r ∈ s.attempts.listAttemptsForWorkload record.spec.workloadId := by
      rw [hrid]
      exact List.mem_filterMap.2 ⟨id, hid, hget⟩
    rw [AttemptRecord.names, Bool.or_eq_true] at hnames
    rcases hnames with hnames | hnames
    · exact hleader (of_decide_eq_true hnames)
    · obtain ⟨group, hgroup, hmem⟩ := (Option.any_eq_true _ _).1 hnames
      refine hg f₀ (by rw [State.frameOf, hpc]; rfl) hapart record
        (Dict.mem_values.2 ⟨v, hrecord⟩) (by rw [hrid]; exact hne) hotherApart r hlist hactive group
        hgroup _ (List.contains_iff_mem.1 hmem) hleader hcand

theorem apart_step (hs : ApartInv g s) (hg : SeesMembers g s a) (h : step cfg s a = some s')
    (hrestart : a.isRestart = false) : Apart g s' := by
  have hs' := placedInv_step hs.placed h
  -- a worker that is used from before and one that was just selected are different
  have hnew : ∀ v w x, v ≠ w → (∃ spec ∈ s'.specOf v, KeepsApart g spec) →
      (∃ spec ∈ s'.specOf w, KeepsApart g spec) → s.Uses v x →
      (∃ ranking now execId f₀ p rest, a = .place w ranking now execId ∧
        s.runs.get? w = some (.lockWait f₀) ∧
        (s.promoteSpare f₀).1.choose cfg w (s.promoteSpare f₀).2 ranking now = some (p :: rest) ∧
        ∃ p' ∈ p :: rest, p'.selectedWorkerId = x) → False := by
    rintro v w x hne hv hw hu ⟨ranking, now, execId, f₀, p, rest, rfl, hpc, hchoose, p', hp', rfl⟩
    obtain ⟨_, _, f, _, -, -, -, hat, -⟩ := hu.atAttempt hs.placed
    obtain ⟨other, hother, hotherApart⟩ :=
      keepsApart_step hs.placed hrestart h (frameOf_of_atAttempt hat) hv
    have hf₀ : s.frameOf w = some f₀ := by rw [State.frameOf, hpc]
    obtain ⟨spec, hspec, hapart⟩ := keepsApart_step hs.placed hrestart h hf₀ hw
    obtain ⟨spec₁, hspec₁, hsame⟩ := hs.placed.carries w f₀ hf₀
    obtain rfl := Option.some.inj (hspec.symm.trans hspec₁)
    exact unused_of_place hs.placed hg hpc hchoose hp' ((keepsApart_congr hsame).2 hapart) hne
      hother hotherApart hu
  rintro v w x hne hv hw ⟨huv, huw⟩
  rcases uses_step hs.placed hs' hrestart h huv with hv₀ | hv₀ <;>
    rcases uses_step hs.placed hs' hrestart h huw with hw₀ | hw₀
  · obtain ⟨_, _, fv, _, -, -, -, hatv, -⟩ := hv₀.atAttempt hs.placed
    obtain ⟨_, _, fw, _, -, -, -, hatw, -⟩ := hw₀.atAttempt hs.placed
    exact hs.apart v w x hne (keepsApart_step hs.placed hrestart h (frameOf_of_atAttempt hatv) hv)
      (keepsApart_step hs.placed hrestart h (frameOf_of_atAttempt hatw) hw) ⟨hv₀, hw₀⟩
  · exact hnew v w x hne hv hw hv₀ hw₀
  · exact hnew w v x hne.symm hw hv hw₀ hv₀
  · obtain ⟨_, _, _, _, _, _, ha, -⟩ := hv₀
    obtain ⟨_, _, _, _, _, _, ha', -⟩ := hw₀
    rw [ha] at ha'
    cases ha'
    exact hne rfl

theorem apartInv_step (hs : ApartInv g s) (hg : SeesMembers g s a) (h : step cfg s a = some s') :
    ApartInv g s' := by
  refine ⟨placedInv_step hs.placed h, ?_⟩
  cases hrestart : a.isRestart with
  | false => exact apart_step hs hg h hrestart
  | true =>
    obtain ⟨now, rfl, rfl⟩ := restart_of_step hrestart h
    rintro v w x - - - ⟨⟨r, hr, hocc⟩, -⟩
    obtain ⟨id, -, hget⟩ := List.mem_filterMap.1 hr
    rw [not_occupies (not_active_restoreAttempts hget)] at hocc
    cases hocc

/-- **Hard anti-affinity.** In every state of a run in which no placement of the affinity group is
offered a member of an execution group that another workload of the affinity group uses, beyond the
worker that is shown for it, no two workloads of the affinity group use the same worker. -/
theorem hard_anti_affinity {as : List Action} (h : Along (step cfg) (SeesMembers g) {} as)
    (hrun : runSteps cfg {} as = some s) : Apart g s := by
  have hinit : ApartInv g {} := by
    refine ⟨placedInv_init, ?_⟩
    rintro v w x - ⟨spec, hspec, -⟩
    cases hspec
  exact (h.invariant (fun _ _ _ => apartInv_step) hinit hrun).apart

/-- A workload that must not share a worker with the others of its affinity group. -/
def apartSpec (w : String) : WorkloadSpec :=
  { sampleSpec w with affinityGroupId := some "g", affinityMode := .differentWorker }

/-- Submit a workload and dispatch it. -/
def launchSample (spec : WorkloadSpec) : List Action :=
  [.submitWorkload spec, .admissionPass [spec.workloadId], .startRun spec.workloadId,
    .place spec.workloadId sampleRanking 0 "group"]

/-- Two workloads of an affinity group run on different workers. -/
theorem hard_anti_affinity_two :
    ∃ s : State, runSteps (sampleConfig 1) {} (dispatchSample ["a", "b"] "u" ++
      launchSample (apartSpec "v") ++ launchSample (apartSpec "w")) = some s ∧
      s.Uses "v" "a" ∧ s.Uses "w" "b" ∧ Apart "g" s := by
  have hrun : (runSteps (sampleConfig 1) {} (dispatchSample ["a", "b"] "u" ++
      launchSample (apartSpec "v") ++ launchSample (apartSpec "w"))).map
      (fun s => (decide (s.Uses "v" "a"), decide (s.Uses "w" "b"))) = some (true, true) := by
    decide +kernel
  obtain ⟨s, hs, hv⟩ := Option.map_eq_some_iff.1 hrun
  obtain ⟨ha, hb⟩ := Prod.mk.inj hv
  have hsees : Along (step (sampleConfig 1)) (SeesMembers "g") {} (dispatchSample ["a", "b"] "u" ++
      launchSample (apartSpec "v") ++ launchSample (apartSpec "w")) := by decide +kernel
  exact ⟨s, hs, of_decide_eq_true ha, of_decide_eq_true hb, hard_anti_affinity hsees hs⟩

/-- Two workloads of an affinity group share a worker: the first is executed by a group of two, and
the second is placed on the other member. -/
theorem group_member_shared :
    ¬ ∀ (cfg : Config) (as : List Action) (g : String) (s : State),
      runSteps cfg {} as = some s → Apart g s := by
  intro hclaim
  have hrun : (runSteps (sampleConfig 1) {}
      (["a", "b"].map (fun x => .registryOp (.registerWorker (sampleWorker x) 0)) ++
        [.createJob groupJob] ++ launchSample { apartSpec "w" with jobId := some "j" } ++
        launchSample (apartSpec "v"))).map (fun s =>
      (s.specOf "v", s.specOf "w", decide (s.Uses "v" "b"), decide (s.Uses "w" "b"))) =
      some (some (apartSpec "v"), some { apartSpec "w" with jobId := some "j" }, true, true) := by
    decide +kernel
  obtain ⟨s, hs, hv⟩ := Option.map_eq_some_iff.1 hrun
  obtain ⟨hspecv, hv⟩ := Prod.mk.inj hv
  obtain ⟨hspecw, hv⟩ := Prod.mk.inj hv
  obtain ⟨hb, hb'⟩ := Prod.mk.inj hv
  exact hclaim _ _ "g" s hs "v" "w" "b" (by decide) ⟨_, hspecv, by decide⟩ ⟨_, hspecw, by decide⟩
    ⟨of_decide_eq_true hb, of_decide_eq_true hb'⟩

end Aidars.Orchestrator
