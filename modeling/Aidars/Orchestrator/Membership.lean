import Aidars.Orchestrator.Submission

/-!
# Membership and dependencies of jobs

A first submission checks that the dependencies of a job are among its workloads and have no cycle;
the graph that is checked has one entry for each identifier, the last one of the list. What is
registered is the first one, and a later submission under the identifier of an existing job
registers its workloads without any check.

`newSpecs` are the specifications that a call registers, and `Rechecked` is the check that is left
out: that they are members of the job, and that the graph of all members is accepted. Along all
sequences of calls that meet it, every workload of a job is one of its members, so are its
dependencies, and there are no cycles (`job_closed`).
-/

namespace Aidars.Orchestrator

variable {cfg : Config} {sizer : Sizing.ClusterSizer} {s s' s₁ : State} {call : SubmitCall}
  {spec : WorkloadSpec} {specs : List WorkloadSpec} {w v j i : String} {job : JobRecord}

/-! ## Dependencies -/

/-- Within job `j`, a registered workload depends on another one. -/
def DependsOn (s : State) (j w v : String) : Prop :=
  ∃ spec, s.specOf w = some spec ∧ spec.jobId = some j ∧ v ∈ spec.dependsOn

/-- A relation has no cycle. -/
def Acyclic {α : Type*} (r : α → α → Prop) : Prop := ∀ a, ¬ Relation.TransGen r a a

theorem Acyclic.mono {α : Type*} {r r' : α → α → Prop} (h : Acyclic r')
    (hr : ∀ a b, r a b → r' a b) : Acyclic r :=
  fun a ha => h a (Relation.TransGen.mono hr a a ha)

theorem get?_dependencies (specs : List WorkloadSpec) (w : String) :
    ((SubmitCall.dependencies specs).get? w = none ↔ w ∉ specs.map (·.workloadId)) ∧
      ∀ l, (SubmitCall.dependencies specs).get? w = some l →
        ∃ spec ∈ specs, spec.workloadId = w ∧ spec.dependsOn = l := by
  unfold SubmitCall.dependencies
  induction specs using List.reverseRecOn with
  | nil => simp
  | append_singleton specs spec ih =>
    rw [List.foldl_append, List.foldl_cons, List.foldl_nil, Dict.get?_set]
    split_ifs with hw
    · refine ⟨by simp [hw], fun l hl => ⟨spec, by simp, hw.symm, Option.some.inj hl⟩⟩
    · obtain ⟨hnone, hsome⟩ := ih
      refine ⟨by simp [hnone, hw], fun l hl => ?_⟩
      obtain ⟨b, hb, hbw, hbl⟩ := hsome l hl
      exact ⟨b, List.mem_append_left _ hb, hbw, hbl⟩

theorem keys_dependencies (h : spec ∈ specs) :
    spec.workloadId ∈ (SubmitCall.dependencies specs).keys := by
  cases hget : (SubmitCall.dependencies specs).get? spec.workloadId with
  | none => exact absurd (List.mem_map_of_mem h) ((get?_dependencies specs _).1.1 hget)
  | some l => exact List.mem_map_of_mem (Dict.mem_entries.2 hget)

/-- What the check of the dependencies ensures. -/
theorem checkDependencies_ok (h : call.checkDependencies = .ok ()) :
    (∀ spec ∈ call.specs, spec.dependsOn = []) ∨
      ((∀ spec ∈ call.specs, ∀ d ∈ spec.dependsOn, d ∈ call.specs.map (·.workloadId)) ∧
        ∃ m, validateDependencyGraph call.framesLeft (SubmitCall.dependencies call.specs) =
          .ok m) := by
  unfold SubmitCall.checkDependencies at h
  dsimp only at h
  split_ifs at h with hshape hlength hclosed hdependent hsingle
  · refine .inr ⟨?_, ?_⟩
    · simpa using hclosed
    · split at h
      · cases h
      · rename_i m hm
        exact ⟨m, hm⟩
  · exact .inl (by simpa using hdependent)

/-- **The dependencies of the specifications have no cycle** when they pass the check and none is
given twice with different dependencies. -/
theorem acyclic_of_checkDependencies (h : call.checkDependencies = .ok ())
    (hsame : ∀ a ∈ call.specs, ∀ b ∈ call.specs, a.workloadId = b.workloadId →
      a.dependsOn = b.dependsOn) :
    Acyclic fun w v => ∃ spec ∈ call.specs, spec.workloadId = w ∧ v ∈ spec.dependsOn := by
  intro w hw
  rcases checkDependencies_ok h with hnone | ⟨-, m, hm⟩
  · have hedge : ∀ w v, ¬ ∃ spec ∈ call.specs, spec.workloadId = w ∧ v ∈ spec.dependsOn := by
      rintro w v ⟨spec, hspec, -, hv⟩
      rw [hnone spec hspec] at hv
      cases hv
    cases hw with
    | single he => exact hedge _ _ he
    | tail _ he => exact hedge _ _ he
  · have hmono : ∀ w v, (∃ spec ∈ call.specs, spec.workloadId = w ∧ v ∈ spec.dependsOn) →
        DepthFirst.Edge (SubmitCall.dependencies call.specs).get? w v := by
      rintro w v ⟨spec, hspec, rfl, hv⟩
      unfold DepthFirst.Edge
      cases hget : (SubmitCall.dependencies call.specs).get? spec.workloadId with
      | none =>
        exact absurd (List.mem_map_of_mem hspec) ((get?_dependencies call.specs _).1.1 hget)
      | some l =>
        obtain ⟨b, hb, hid, rfl⟩ := (get?_dependencies call.specs _).2 l hget
        rw [Option.getD_some, hsame b hb spec hspec hid]
        exact hv
    have hkey : w ∈ (SubmitCall.dependencies call.specs).keys := by
      obtain ⟨v, ⟨spec, hspec, rfl, -⟩, -⟩ := Relation.TransGen.head'_iff.1 hw
      exact keys_dependencies hspec
    exact DepthFirst.validate_acyclic hm hkey (Relation.TransGen.mono hmono w w hw)

/-! ## What a call registers -/

/-- The specifications that are registered: those that are new, up to the first one that
conflicts. -/
def newSpecs (cfg : Config) (registered : String → Option WorkloadSpec) :
    List WorkloadSpec → List WorkloadSpec
  | [] => []
  | spec :: specs =>
    match registered spec.workloadId with
    | some existing => if cfg.sameSpec existing spec then newSpecs cfg registered specs else []
    | none => spec :: newSpecs cfg (Function.update registered spec.workloadId (some spec)) specs

theorem newSpecs_subset (registered : String → Option WorkloadSpec) (specs : List WorkloadSpec) :
    newSpecs cfg registered specs ⊆ specs := by
  induction specs generalizing registered with
  | nil => exact List.Subset.refl _
  | cons spec specs ih =>
    rw [newSpecs]
    split
    · split_ifs
      · exact List.subset_cons_of_subset _ (ih registered)
      · exact List.nil_subset _
    · exact List.cons_subset_cons _ (ih _)

/-- **The specifications after a list of workloads was submitted.** -/
theorem specOf_submitAll (h : (submitAll cfg s specs).1.specOf w = some spec) :
    s.specOf w = some spec ∨ (spec ∈ newSpecs cfg s.specOf specs ∧ spec.workloadId = w) := by
  induction specs generalizing s with
  | nil => exact .inl h
  | cons b specs ih =>
    rw [submitAll] at h
    rw [newSpecs]
    cases hadd : s.addWorkload cfg b with
    | none =>
      rw [hadd] at h
      exact .inl h
    | some s₁ =>
      rw [hadd] at h
      have hw := ih h
      rw [specOf_enqueueWorkload] at hw
      rcases addWorkload_cases hadd with ⟨existing, hb, hsame, rfl⟩ | ⟨hb, -⟩
      · rw [hb]
        dsimp only
        rwa [if_pos hsame]
      · rw [hb]
        dsimp only
        have hupdate : s₁.specOf = Function.update s.specOf b.workloadId (some b) := by
          funext v
          rw [specOf_addWorkload hadd, Function.update_apply]
          by_cases hv : v = b.workloadId
          · rw [if_pos hv, if_pos hv.symm, hv, hb]
            rfl
          · rw [if_neg hv, if_neg (Ne.symm hv), Option.or_none]
        rcases hw with hw | ⟨hmem, hid⟩
        · rw [hupdate, Function.update_apply] at hw
          split_ifs at hw with hwb
          · obtain rfl := Option.some.inj hw
            exact .inr ⟨List.mem_cons_self, hwb.symm⟩
          · exact .inl hw
        · rw [hupdate] at hmem
          exact .inr ⟨List.mem_cons_of_mem _ hmem, hid⟩

theorem mem_stamped (h : spec ∈ call.stamped j) : spec.jobId = some j ∧
    ∃ b ∈ call.specs, b.workloadId = spec.workloadId ∧ b.dependsOn = spec.dependsOn := by
  obtain ⟨b, hb, rfl⟩ := List.mem_map.1 h
  split_ifs with hj
  · exact ⟨hj, b, hb, rfl, rfl⟩
  · exact ⟨rfl, b, hb, rfl, rfl⟩

/-! ## The check that is left out -/

/-- The dependencies of a member of a job when some specifications are registered as well. -/
def dependenciesWith (s : State) (j : String) (new : List WorkloadSpec) (w : String) :
    List String :=
  ((s.specOf w).filter (·.jobId = some j)).elim [] (·.dependsOn) ++
    (new.filter (·.workloadId = w)).flatMap (·.dependsOn)

/-- The specifications are of members of the job, and the graph of the members is accepted. -/
def Rechecked (s : State) (j : String) (members : PySet String) (new : List WorkloadSpec) : Prop :=
  (∀ spec ∈ new, spec.workloadId ∈ members) ∧ (DepthFirst.validate (members.toList.length + 1)
    members.toList fun w => if w ∈ members then some (dependenciesWith s j new w) else none).isOk

instance (s : State) (j : String) (members : PySet String) (new : List WorkloadSpec) :
    Decidable (Rechecked s j members new) :=
  inferInstanceAs (Decidable (_ ∧ _))

/-- What an existing job would register is checked again. A new job is rejected, it cannot be saved,
no identifier is given with different dependencies, or the specifications that are registered are
checked. -/
def KeepsClosed (cfg : Config) (sizer : Sizing.ClusterSizer) (s : State) (call : SubmitCall) :
    Prop :=
  ∀ j, call.jobId = .ok j →
    match s.jobs.get? j with
    | some job => Rechecked s j job.workloadIds (newSpecs cfg s.specOf (call.stamped j))
    | none => (∃ e, planJob cfg sizer s call j = .error e) ∨ ¬ call.Saved cfg ∨
      (∀ a ∈ call.specs, ∀ b ∈ call.specs, a.workloadId = b.workloadId →
        a.dependsOn = b.dependsOn) ∨
      Rechecked s j (PySet.ofList (call.specs.map (·.workloadId)))
        (newSpecs cfg s.specOf (call.stamped j))

/-! ## The invariant -/

/-- Workloads of a job are its members, so are their dependencies, and there are no cycles. -/
structure Closed (s : State) : Prop where
  member : ∀ w spec j job, s.specOf w = some spec → spec.jobId = some j →
    s.jobs.get? j = some job → w ∈ job.workloadIds ∧ ∀ d ∈ spec.dependsOn, d ∈ job.workloadIds
  acyclic : ∀ j job, s.jobs.get? j = some job → Acyclic (DependsOn s j)

/-- The invariant of submissions: the job of every workload exists. -/
structure ClosedInv (s : State) : Prop where
  closed : Closed s
  job : ∀ w spec, s.specOf w = some spec → ∃ j, spec.jobId = some j ∧ (s.jobs.get? j).isSome

/-- The dependencies of the registered workloads of a job and of some new ones. -/
def DependsOnWith (s : State) (j : String) (new : List WorkloadSpec) (w v : String) : Prop :=
  DependsOn s j w v ∨ ∃ spec ∈ new, spec.workloadId = w ∧ v ∈ spec.dependsOn

/-- Dependencies of a job after workloads of another one, or the same, were submitted. -/
theorem dependsOn_submitAll (hspecs : ∀ spec ∈ specs, spec.jobId = some j)
    (h : DependsOn (submitAll cfg s specs).1 i w v) : DependsOn s i w v ∨
      (i = j ∧ DependsOnWith s j (newSpecs cfg s.specOf specs) w v) := by
  obtain ⟨spec, hspec, hi, hv⟩ := h
  rcases specOf_submitAll hspec with hold | ⟨hnew, hid⟩
  · exact .inl ⟨spec, hold, hi, hv⟩
  · have hj := hspecs spec (newSpecs_subset _ _ hnew)
    exact .inr ⟨Option.some.inj (hi.symm.trans hj), .inr ⟨spec, hnew, hid, hv⟩⟩

theorem DependsOnWith.mem {new : List WorkloadSpec} (h : DependsOnWith s j new w v) :
    v ∈ dependenciesWith s j new w := by
  unfold dependenciesWith
  rcases h with ⟨spec, hspec, hj, hv⟩ | ⟨spec, hspec, hid, hv⟩
  · refine List.mem_append_left _ ?_
    rwa [hspec, Option.filter_some, if_pos (by simpa using hj)]
  · refine List.mem_append_right _ (List.mem_flatMap.2 ⟨spec, ?_, hv⟩)
    exact List.mem_filter.2 ⟨hspec, by simpa using hid⟩

/-- **The workloads that are submitted keep the jobs closed** when those that are registered are
members, with members as dependencies, and make no cycle. -/
theorem closedInv_submitAll (hs : ClosedInv s) (hjob : s.jobs.get? j = some job)
    (hspecs : ∀ spec ∈ specs, spec.jobId = some j)
    (hmember : ∀ spec ∈ newSpecs cfg s.specOf specs,
      spec.workloadId ∈ job.workloadIds ∧ ∀ d ∈ spec.dependsOn, d ∈ job.workloadIds)
    (hacyclic : Acyclic (DependsOnWith s j (newSpecs cfg s.specOf specs))) :
    ClosedInv (submitAll cfg s specs).1 := by
  have hjobs := @jobs_submitAll cfg s specs
  refine ⟨⟨?_, ?_⟩, ?_⟩
  · intro w spec i job' hspec hi hjob'
    rw [hjobs] at hjob'
    rcases specOf_submitAll hspec with hold | ⟨hnew, rfl⟩
    · exact hs.closed.member w spec i job' hold hi hjob'
    · obtain rfl := Option.some.inj (hi.symm.trans (hspecs spec (newSpecs_subset _ _ hnew)))
      obtain rfl := Option.some.inj (hjob.symm.trans hjob')
      exact hmember spec hnew
  · intro i job' hjob'
    rw [hjobs] at hjob'
    by_cases hi : i = j
    · obtain rfl := hi
      refine hacyclic.mono fun a b hab => ?_
      rcases dependsOn_submitAll hspecs hab with hold | ⟨-, hnew⟩
      · exact .inl hold
      · exact hnew
    · refine (hs.closed.acyclic i job' hjob').mono fun a b hab => ?_
      rcases dependsOn_submitAll hspecs hab with hold | ⟨hij, -⟩
      · exact hold
      · exact absurd hij hi
  · intro w spec hspec
    rw [hjobs]
    rcases specOf_submitAll hspec with hold | ⟨hnew, -⟩
    · exact hs.job w spec hold
    · exact ⟨j, hspecs spec (newSpecs_subset _ _ hnew), hjob ▸ rfl⟩

theorem isOk_iff {α ε : Type*} {x : Except ε α} : x.isOk ↔ ∃ a, x = .ok a := by
  cases x <;> simp [Except.isOk, Except.toBool]

/-- **What is checked again keeps the job closed.** -/
theorem Rechecked.closed (hs : ClosedInv s) (hjob : s.jobs.get? j = some job)
    (h : Rechecked s j job.workloadIds (newSpecs cfg s.specOf specs)) :
    (∀ spec ∈ newSpecs cfg s.specOf specs,
      spec.workloadId ∈ job.workloadIds ∧ ∀ d ∈ spec.dependsOn, d ∈ job.workloadIds) ∧
      Acyclic (DependsOnWith s j (newSpecs cfg s.specOf specs)) := by
  obtain ⟨hids, hok⟩ := h
  obtain ⟨m, hm⟩ := isOk_iff.1 hok
  clear hok
  generalize newSpecs cfg s.specOf specs = new at hids hm ⊢
  have hmember : ∀ a b, DependsOnWith s j new a b → a ∈ job.workloadIds := by
    rintro a b (⟨spec, hspec, hj, -⟩ | ⟨spec, hspec, rfl, -⟩)
    · exact (hs.closed.member a spec j job hspec hj hjob).1
    · exact hids spec hspec
  have hedge : ∀ a b, DependsOnWith s j new a b → DepthFirst.Edge (fun w =>
      if w ∈ job.workloadIds then some (dependenciesWith s j new w) else none) a b := by
    intro a b hab
    show b ∈ (if a ∈ job.workloadIds then some (dependenciesWith s j new a) else none).getD []
    rw [if_pos (hmember a b hab)]
    exact hab.mem
  constructor
  · refine fun spec hspec => ⟨hids spec hspec, fun d hd => ?_⟩
    have hclosed := DepthFirst.validate_closed hm (hids spec hspec)
      (hedge spec.workloadId d (.inr ⟨spec, hspec, rfl, hd⟩))
    by_contra hnot
    simp [hnot] at hclosed
  · intro a ha
    obtain ⟨b, hab, -⟩ := Relation.TransGen.head'_iff.1 ha
    exact DepthFirst.validate_acyclic hm (hmember a b hab) (Relation.TransGen.mono hedge a a ha)

/-- A job without registered workloads is added. -/
theorem closedInv_setJob (hs : ClosedInv s) (hjob : s.jobs.get? j = none) (job : JobRecord) :
    ClosedInv { s with jobs := s.jobs.set j job } := by
  -- the job of a registered workload exists already
  have hother : ∀ w spec, s.specOf w = some spec → spec.jobId ≠ some j := by
    intro w spec hspec hj
    obtain ⟨i, hi, hexists⟩ := hs.job w spec hspec
    obtain rfl := Option.some.inj (hj.symm.trans hi)
    rw [hjob] at hexists
    cases hexists
  refine ⟨⟨?_, ?_⟩, ?_⟩
  · intro w spec i job' hspec hi hjob'
    have hij : i ≠ j := fun hij => hother w spec hspec (hij ▸ hi)
    rw [Dict.get?_set, if_neg hij] at hjob'
    exact hs.closed.member w spec i job' hspec hi hjob'
  · intro i job' hjob'
    rw [Dict.get?_set] at hjob'
    split_ifs at hjob' with hij
    · obtain rfl := hij
      intro a ha
      obtain ⟨b, ⟨spec, hspec, hj, -⟩, -⟩ := Relation.TransGen.head'_iff.1 ha
      exact hother a spec hspec hj
    · exact hs.closed.acyclic i job' hjob'
  · intro w spec hspec
    obtain ⟨i, hi, hexists⟩ := hs.job w spec hspec
    refine ⟨i, hi, ?_⟩
    rw [Dict.get?_set]
    split_ifs
    · rfl
    · exact hexists

theorem workloadIds_of_planJob (hplan : planJob cfg sizer s call j = .ok job) :
    job.workloadIds = PySet.ofList (call.specs.map (·.workloadId)) := by
  obtain ⟨-, -, assigned, spare, -, hcreate⟩ := planJob_ok hplan
  obtain ⟨-, rfl⟩ := JobRecord.create_eq_ok_iff.1 hcreate
  rfl

/-- **A new job is closed** when no identifier is given with different dependencies. -/
theorem closed_of_planJob (hs : ClosedInv s) (hjob : s.jobs.get? j = none)
    (hplan : planJob cfg sizer s call j = .ok job)
    (hsame : ∀ a ∈ call.specs, ∀ b ∈ call.specs, a.workloadId = b.workloadId →
      a.dependsOn = b.dependsOn) :
    (∀ spec ∈ newSpecs cfg s.specOf (call.stamped j),
      spec.workloadId ∈ job.workloadIds ∧ ∀ d ∈ spec.dependsOn, d ∈ job.workloadIds) ∧
      Acyclic (DependsOnWith s j (newSpecs cfg s.specOf (call.stamped j))) := by
  have hdeps := (planJob_ok hplan).1
  rw [workloadIds_of_planJob hplan]
  have hnew : ∀ spec ∈ newSpecs cfg s.specOf (call.stamped j), ∃ b ∈ call.specs,
      b.workloadId = spec.workloadId ∧ b.dependsOn = spec.dependsOn :=
    fun spec hspec => (mem_stamped (newSpecs_subset _ _ hspec)).2
  constructor
  · intro spec hspec
    obtain ⟨b, hb, hid, hdep⟩ := hnew spec hspec
    refine ⟨PySet.mem_ofList.2 (hid ▸ List.mem_map_of_mem hb), fun d hd => PySet.mem_ofList.2 ?_⟩
    rw [← hdep] at hd
    rcases checkDependencies_ok hdeps with hnone | ⟨hclosed, -⟩
    · rw [hnone b hb] at hd
      cases hd
    · exact hclosed b hb d hd
  · refine (acyclic_of_checkDependencies hdeps hsame).mono fun a b hab => ?_
    rcases hab with ⟨spec, hspec, hj, -⟩ | ⟨spec, hspec, rfl, hb⟩
    · obtain ⟨i, hi, hexists⟩ := hs.job a spec hspec
      obtain rfl := Option.some.inj (hj.symm.trans hi)
      rw [hjob] at hexists
      cases hexists
    · obtain ⟨c, hc, hid, hdep⟩ := hnew spec hspec
      exact ⟨c, hc, hid, hdep ▸ hb⟩

theorem closedInv_submitJob (hs : ClosedInv s) (hcall : KeepsClosed cfg sizer s call) :
    ClosedInv (submitJob cfg sizer s call).1 := by
  cases hid : call.jobId with
  | error e =>
    rw [submitJob_of_error hid]
    exact hs
  | ok j =>
    have hcall := hcall j hid
    have hspecs : ∀ spec ∈ call.stamped j, spec.jobId = some j := fun spec h => (mem_stamped h).1
    cases hjob : s.jobs.get? j with
    | some job =>
      rw [hjob] at hcall
      obtain ⟨hmember, hacyclic⟩ := Rechecked.closed hs hjob hcall
      rw [submitJob_existing hid hjob]
      exact closedInv_submitAll hs hjob hspecs hmember hacyclic
    | none =>
      rw [hjob] at hcall
      cases hplan : planJob cfg sizer s call j with
      | error e =>
        rw [submitJob_rejected hid hjob hplan]
        exact hs
      | ok job =>
        have hs₁ := closedInv_setJob hs hjob job
        by_cases hsaved : call.Saved cfg
        swap
        · rw [submitJob_unsaved hid hjob hplan hsaved]
          exact hs₁
        rw [submitJob_new hid hjob hplan hsaved]
        have hget : ({ s with jobs := s.jobs.set j job } : State).jobs.get? j = some job :=
          (Dict.get?_set s.jobs j j job).trans (if_pos rfl)
        have hclosed : (∀ spec ∈ newSpecs cfg s.specOf (call.stamped j),
            spec.workloadId ∈ job.workloadIds ∧ ∀ d ∈ spec.dependsOn, d ∈ job.workloadIds) ∧
            Acyclic (DependsOnWith s j (newSpecs cfg s.specOf (call.stamped j))) := by
          rcases hcall with ⟨e, he⟩ | hunsaved | hsame | hcheck
          · rw [hplan] at he
            cases he
          · exact absurd hsaved hunsaved
          · exact closed_of_planJob hs hjob hplan hsame
          · have hcheck : Rechecked { s with jobs := s.jobs.set j job } j job.workloadIds
                (newSpecs cfg s.specOf (call.stamped j)) := by
              rw [workloadIds_of_planJob hplan]
              exact hcheck
            have hclosed := hcheck.closed hs₁ hget
            exact hclosed
        exact closedInv_submitAll hs₁ hget hspecs hclosed.1 hclosed.2

/-! ## Sequences of submissions -/

/-- A submission, or a change of what submissions read besides: the workers and the attempts. -/
inductive Arrival
  | submitJob (call : SubmitCall)
  | workers (registry : WorkerRegistry)
  | attempts (registry : AttemptRegistry)

/-- What arrives changes the state, also when it raises. -/
def arrive (cfg : Config) (sizer : Sizing.ClusterSizer) (s : State) : Arrival → Option State
  | .submitJob call => some (submitJob cfg sizer s call).1
  | .workers registry => some { s with registry }
  | .attempts attempts => some { s with attempts }

/-- The submission, if it is one, keeps the jobs closed. -/
def Arrival.KeepsClosed (cfg : Config) (sizer : Sizing.ClusterSizer) (s : State) : Arrival → Prop
  | .submitJob call => Orchestrator.KeepsClosed cfg sizer s call
  | _ => True

theorem closedInv_empty : ClosedInv {} :=
  ⟨⟨fun _ _ _ _ h => (nomatch h), fun _ _ h => (nomatch h)⟩, fun _ _ h => (nomatch h)⟩

theorem closedInv_arrive {a : Arrival} (hs : ClosedInv s) (ha : a.KeepsClosed cfg sizer s)
    (h : arrive cfg sizer s a = some s') : ClosedInv s' := by
  cases a with
  | submitJob call =>
    obtain rfl := Option.some.inj h
    exact closedInv_submitJob hs ha
  | workers registry =>
    obtain rfl := Option.some.inj h
    exact ⟨⟨hs.closed.member, hs.closed.acyclic⟩, hs.job⟩
  | attempts registry =>
    obtain rfl := Option.some.inj h
    exact ⟨⟨hs.closed.member, hs.closed.acyclic⟩, hs.job⟩

/-- **Jobs are closed along all sequences of submissions** that check again what an existing job
registers, and that give no identifier with different dependencies. -/
theorem job_closed (cfg : Config) (sizer : Sizing.ClusterSizer) (as : List Arrival) (s : State)
    (has : Along (arrive cfg sizer) (Arrival.KeepsClosed cfg sizer) {} as)
    (hrun : runFrom (arrive cfg sizer) {} as = some s) : Closed s := by
  have hinv : ClosedInv s := by
    refine Along.invariant ?_ closedInv_empty has hrun
    intro s a s' hs ha h
    exact closedInv_arrive hs ha h
  exact hinv.closed

/-- A workload of a job. -/
def sampleMember (j w : String) (dependsOn : List String) : WorkloadSpec :=
  { sampleSpec w with jobId := some j, dependsOn }

/-- A pipeline is submitted twice. -/
theorem job_closed_pipeline :
    ∃ s, runFrom (arrive (sampleConfig 1) sampleSizer) {}
      [.submitJob (sampleCall "j" [sampleMember "j" "a" [], sampleMember "j" "b" ["a"]]),
        .submitJob (sampleCall "j" [sampleMember "j" "a" [], sampleMember "j" "b" ["a"]])] =
          some s ∧
      DependsOn s "j" "b" "a" ∧ Closed s := by
  generalize hc : sampleCall "j" [sampleMember "j" "a" [], sampleMember "j" "b" ["a"]] = call
  have hid : call.jobId = .ok "j" := by
    rw [← hc]
    rfl
  have hsame : ∀ a ∈ call.specs, ∀ b ∈ call.specs, a.workloadId = b.workloadId →
      a.dependsOn = b.dependsOn := by
    rw [← hc]
    decide +kernel
  generalize hs₁ : (submitJob (sampleConfig 1) sampleSizer {} call).1 = s₁
  have hcheck : (s₁.jobs.get? "j").any (fun job =>
      Rechecked s₁ "j" job.workloadIds (newSpecs (sampleConfig 1) s₁.specOf
        (call.stamped "j"))) ∧
      ((submitJob (sampleConfig 1) sampleSizer s₁ call).1.specOf "b").any fun spec =>
        spec.jobId = some "j" ∧ "a" ∈ spec.dependsOn := by
    rw [← hs₁, ← hc]
    decide +kernel
  have hrun : runFrom (arrive (sampleConfig 1) sampleSizer) {} [.submitJob call, .submitJob call] =
      some (submitJob (sampleConfig 1) sampleSizer s₁ call).1 := by
    rw [← hs₁]
    rfl
  refine ⟨_, hrun, ?_, job_closed (sampleConfig 1) sampleSizer _ _ ?_ hrun⟩
  · obtain ⟨spec, hspec, hdep⟩ := (Option.any_eq_true _ _).1 hcheck.2
    simp only [Bool.decide_and, Bool.and_eq_true, decide_eq_true_eq] at hdep
    exact ⟨spec, hspec, hdep.1, hdep.2⟩
  · refine ⟨fun j _ => .inr (.inr (.inl hsame)), s₁, congrArg some hs₁, ?_, _, rfl, trivial⟩
    intro j hj
    obtain rfl := Except.ok.inj (hid.symm.trans hj)
    obtain ⟨job, hjob, hrechecked⟩ := (Option.any_eq_true _ _).1 hcheck.1
    rw [hjob]
    exact of_decide_eq_true hrechecked

/-- A workload is submitted later under the identifier of the job. It is registered, but is no
member. -/
theorem unchecked_under_existing_job :
    ¬ ∀ (as : List Arrival) (s : State),
      runFrom (arrive (sampleConfig 1) sampleSizer) {} as = some s → Closed s := by
  intro hclaim
  obtain ⟨s, hs⟩ : ∃ s, s = (submitJob (sampleConfig 1) sampleSizer
    (submitJob (sampleConfig 1) sampleSizer {} (sampleCall "j" [sampleMember "j" "a" []])).1
    (sampleCall "j" [sampleMember "j" "b" []])).1 := ⟨_, rfl⟩
  have hrun : (s.specOf "b").any (fun spec => spec.jobId = some "j") ∧
      (s.jobs.get? "j").any fun job => "b" ∉ job.workloadIds := by
    rw [hs]
    decide +kernel
  obtain ⟨spec, hspec, hj⟩ := (Option.any_eq_true _ _).1 hrun.1
  obtain ⟨job, hjob, hnot⟩ := (Option.any_eq_true _ _).1 hrun.2
  have hclosed := hclaim [.submitJob (sampleCall "j" [sampleMember "j" "a" []]),
    .submitJob (sampleCall "j" [sampleMember "j" "b" []])] s (by rw [hs]; rfl)
  exact of_decide_eq_true hnot
    (hclosed.member "b" spec "j" job hspec (of_decide_eq_true hj) hjob).1

end Aidars.Orchestrator
