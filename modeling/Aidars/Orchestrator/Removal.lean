import Aidars.Orchestrator.AntiAffinity
import Aidars.Orchestrator.Unverified

/-!
# Workers that leave the registry

An attempt that runs on a worker is released when the worker is lost: `handleWorkerLost` marks it.
The eviction pass calls it for each worker that it removes; the endpoint that unregisters a worker
removes it from the registry and does nothing else. Attempts name workers as they introduced
themselves, the registry files them under their stripped identifiers, and the eviction pass passes
those on.

`known_workers` states when a removal releases the attempts of the worker: exactly when it does not
come from the endpoint while an attempt runs on the worker (`RemovesUnused`), and when every attempt
that runs on an evicted worker names an evicted worker as it is filed.
-/

namespace Aidars

namespace AttemptRecord

/-- The workers that the attempt names. -/
def namedIds (r : AttemptRecord) : List String :=
  r.workerId.toList ++ (r.executionGroup.map (·.workerIds)).getD []

/-- The attempt is active and names the worker that is filed under the identifier. -/
def runsOn (k : String) (r : AttemptRecord) : Bool :=
  r.status.isActive && r.namedIds.any fun x => (validateWorkerId x).toOption = some k

variable {r : AttemptRecord} {x k : String}

theorem mem_namedIds : x ∈ r.namedIds ↔ r.names x = true := by
  unfold namedIds names
  rw [List.mem_append, Option.mem_toList, Bool.or_eq_true, decide_eq_true_iff]
  refine or_congr_right ?_
  cases r.executionGroup with
  | none => simp
  | some g => simp

theorem runsOn_iff : r.runsOn k = true ↔
    r.status.isActive = true ∧ ∃ x, r.names x = true ∧ validateWorkerId x = .ok k := by
  have hok : ∀ x, (validateWorkerId x).toOption = some k ↔ validateWorkerId x = .ok k := by
    intro x
    cases validateWorkerId x with
    | error e => exact ⟨fun h => (by cases h), fun h => (by cases h)⟩
    | ok k' =>
      exact ⟨fun h => congrArg _ (Option.some.inj h), fun h => congrArg _ (Except.ok.inj h)⟩
  simp only [runsOn, Bool.and_eq_true, List.any_eq_true, decide_eq_true_iff, mem_namedIds, hok]

end AttemptRecord

namespace WorkerRegistry

variable {cfg : RegistryConfig} {r r' : WorkerRegistry} {wid k : String}

theorem mem_keys_of_rewrites (h : Rewrites wid r r') :
    k ∈ r'.workers.keys ↔ k ∈ r.workers.keys := by
  obtain ⟨f, -, hworkers⟩ := h
  rw [Dict.mem_keys, Dict.mem_keys, hworkers]
  split_ifs with hk
  · rw [hk]
    cases r.workers.get? wid <;> simp
  · rfl

/-- An eviction returns workers that were registered. -/
theorem mem_keys_of_evicted {timeoutSeconds : Option ℚ} {now : ℚ}
    (h : k ∈ (evictExpiredWorkers cfg r timeoutSeconds now).2) : k ∈ r.workers.keys := by
  obtain ⟨-, hevicted⟩ :=
    foldl_evictOne (expiredIds r (now - timeoutSeconds.getD cfg.heartbeatTimeout)) (r, []) k
  obtain hk | ⟨-, hk⟩ := hevicted.1 h
  · cases hk
  · exact Dict.mem_keys.2 (Option.isSome_iff_exists.1 hk)

theorem workers_evictExpiredWorkers (timeoutSeconds : Option ℚ) (now : ℚ) :
    (evictExpiredWorkers cfg r timeoutSeconds now).1.workers.get? k =
      if k ∈ (evictExpiredWorkers cfg r timeoutSeconds now).2 then none
      else r.workers.get? k := by
  obtain ⟨hworkers, hevicted⟩ :=
    foldl_evictOne (expiredIds r (now - timeoutSeconds.getD cfg.heartbeatTimeout)) (r, []) k
  rw [evictExpiredWorkers, if_congr hevicted rfl rfl, hworkers]
  by_cases hk : k ∈ expiredIds r (now - timeoutSeconds.getD cfg.heartbeatTimeout)
  · cases r.workers.get? k <;> simp [hk]
  · simp [hk]

theorem mem_keys_evictExpiredWorkers (timeoutSeconds : Option ℚ) (now : ℚ) :
    k ∈ (evictExpiredWorkers cfg r timeoutSeconds now).1.workers.keys ↔
      k ∈ r.workers.keys ∧ k ∉ (evictExpiredWorkers cfg r timeoutSeconds now).2 := by
  rw [Dict.mem_keys, Dict.mem_keys, workers_evictExpiredWorkers]
  split_ifs with hk
  · simp [hk]
  · simp [hk]

end WorkerRegistry

namespace Orchestrator

variable {cfg : Config} {s s' : State} {w x k : String} {a : Action} {f : Frame}
  {reg reg' : AttemptRegistry} {r : AttemptRecord} {id : String}

/-! ## Removals -/

/-- An attempt runs on the worker. -/
def State.InUse (s : State) (k : String) : Prop :=
  ∃ r ∈ s.attempts.attempts.values, r.runsOn k = true

/-- No attempt runs on a worker that the step has removed. -/
def ReleasesRemoved (s s' : State) : Prop :=
  ∀ k ∈ s.registry.workers.keys, k ∉ s'.registry.workers.keys → ¬ s'.InUse k

/-- A call of the registry removes workers only that no attempt runs on, and each attempt that runs
on an evicted worker names an evicted worker under the identifier it is filed under. -/
def RemovesUnused (cfg : Config) (s : State) : Action → Prop
  | .registryOp op => ∀ k ∈ s.registry.workers.keys,
      k ∉ (s.registry.apply cfg.registry op).workers.keys → ¬ s.InUse k
  | .evictionPass now => ∀ k ∈ (s.registry.evictExpiredWorkers cfg.registry none now).2,
      ∀ r ∈ s.attempts.attempts.values, r.runsOn k = true →
        ∃ x ∈ (s.registry.evictExpiredWorkers cfg.registry none now).2, r.names x = true
  | _ => True

instance (s : State) (k : String) : Decidable (s.InUse k) := by
  unfold State.InUse
  infer_instance

instance (s s' : State) : Decidable (ReleasesRemoved s s') := by
  unfold ReleasesRemoved
  infer_instance

instance (cfg : Config) (s : State) (a : Action) : Decidable (RemovesUnused cfg s a) := by
  apply a.casesOn (motive := fun a => Decidable (RemovesUnused cfg s a)) <;> intros <;>
    unfold RemovesUnused <;> infer_instance

theorem inUse_iff : s.InUse k ↔ ∃ id r, s.attempts.getAttempt id = some r ∧ r.runsOn k = true := by
  constructor
  · rintro ⟨r, hr, hk⟩
    obtain ⟨id, hid⟩ := Dict.mem_values.1 hr
    exact ⟨id, r, hid, hk⟩
  · rintro ⟨id, r, hid, hk⟩
    exact ⟨r, Dict.mem_values.2 ⟨id, hid⟩, hk⟩

/-! ## What a lost worker releases -/

theorem active_markLost {id' : String} {why : Option String} {lost : List String} :
    (reg.markLost id' why lost).getAttempt id = some r ∧ r.status.isActive = true ↔
      (reg.getAttempt id = some r ∧ r.status.isActive = true) ∧ id ≠ id' := by
  rw [AttemptRegistry.markLost, AttemptRegistry.getAttempt_update]
  split_ifs with hid
  · refine ⟨?_, fun h => absurd hid h.2⟩
    rintro ⟨hr, hactive⟩
    obtain ⟨r₀, -, rfl⟩ := Option.map_eq_some_iff.1 hr
    cases hactive
  · exact (and_iff_left hid).symm

theorem active_loseAttempts {ids : List String} {why : String} :
    (State.loseAttempts reg ids why x).getAttempt id = some r ∧ r.status.isActive = true ↔
      (reg.getAttempt id = some r ∧ r.status.isActive = true) ∧ id ∉ ids := by
  induction ids generalizing reg with
  | nil => simp [State.loseAttempts]
  | cons id' ids ih =>
    have hstep : State.loseAttempts reg (id' :: ids) why x =
        State.loseAttempts (reg.markLost id' (some why) [x]) ids why x := rfl
    rw [hstep, ih, active_markLost, List.mem_cons, not_or, and_assoc]

/-- A lost worker releases the attempts that name it. -/
theorem active_handleWorkerLost (hfiled : FiledIds s.attempts) :
    (s.handleWorkerLost x).attempts.getAttempt id = some r ∧ r.status.isActive = true ↔
      (s.attempts.getAttempt id = some r ∧ r.status.isActive = true) ∧ ¬ r.names x = true := by
  refine active_loseAttempts.trans (and_congr_right fun ⟨hr, hactive⟩ => not_congr ?_)
  constructor
  · intro hid
    exact names_of_mem_running hfiled (fun _ ha => ha) id hid r hr
  · intro hnames
    refine List.mem_map.2 ⟨r, List.mem_filter.2 ⟨Dict.mem_values.2 ⟨id, hr⟩, ?_⟩, hfiled id r hr⟩
    rw [AttemptRecord.occupies, hactive, hnames, Bool.and_self]

theorem active_foldl_handleWorkerLost (hfiled : FiledIds s.attempts) (l : List String) :
    (l.foldl State.handleWorkerLost s).attempts.getAttempt id = some r ∧
        r.status.isActive = true ↔
      (s.attempts.getAttempt id = some r ∧ r.status.isActive = true) ∧
        ∀ x ∈ l, ¬ r.names x = true := by
  induction l generalizing s with
  | nil => simp
  | cons x l ih =>
    have hfiled' : FiledIds (s.handleWorkerLost x).attempts :=
      hfiled.of_marked (marked_handleWorkerLost s x)
    rw [List.foldl_cons, ih hfiled', active_handleWorkerLost hfiled, List.forall_mem_cons,
      and_assoc]

/-- **What an eviction pass releases.** -/
theorem active_evictionPass (hfiled : FiledIds s.attempts) {now : ℚ} :
    (s.evictionPass cfg now).attempts.getAttempt id = some r ∧ r.status.isActive = true ↔
      (s.attempts.getAttempt id = some r ∧ r.status.isActive = true) ∧
        ∀ x ∈ (s.registry.evictExpiredWorkers cfg.registry none now).2, ¬ r.names x = true :=
  active_foldl_handleWorkerLost
    (s := { s with registry := (s.registry.evictExpiredWorkers cfg.registry none now).1 }) hfiled _

/-! ## Attempts run on registered workers -/

/-- The workers that active attempts name are registered. -/
def KnownWorkers (s : State) : Prop :=
  ∀ id r, s.attempts.getAttempt id = some r → r.status.isActive = true → ∀ x, r.names x = true →
    ∃ k ∈ s.registry.workers.keys, validateWorkerId x = .ok k

/-- Attempts that were active before stay on workers that stay registered. -/
theorem KnownWorkers.of_kept (h : KnownWorkers s)
    (hattempts : ∀ id r, s'.attempts.getAttempt id = some r → r.status.isActive = true →
      s.attempts.getAttempt id = some r)
    (hkeys : ∀ k ∈ s.registry.workers.keys, k ∉ s'.registry.workers.keys → ¬ s'.InUse k) :
    KnownWorkers s' := by
  intro id r hr hactive x hx
  obtain ⟨k, hk, hxk⟩ := h id r (hattempts id r hr hactive) hactive x hx
  refine ⟨k, ?_, hxk⟩
  by_contra hgone
  exact hkeys k hk hgone (inUse_iff.2 ⟨id, r, hr, AttemptRecord.runsOn_iff.2 ⟨hactive, x, hx, hxk⟩⟩)

theorem registered_of_choose (hkeyed : WorkerRegistry.Keyed s.registry) {ranking : Ranking}
    {now : ℚ} {ds : List PlacementDecision} (h : s.choose cfg w f ranking now = some ds) :
    ∀ p ∈ ds, ∃ k ∈ s.registry.workers.keys, validateWorkerId p.selectedWorkerId = .ok k := by
  intro p hp
  obtain ⟨profile, hprofile, hid, -, -, -⟩ := choose_eligible h p hp
  obtain ⟨info, hinfo, hbuild⟩ := List.mem_filterMap.1 hprofile
  obtain ⟨telemetry, -, rfl⟩ := Option.map_eq_some_iff.1 hbuild
  dsimp only at hid
  obtain ⟨k, hk⟩ := Dict.mem_values.1 (mem_candidateWorkers hinfo)
  refine ⟨k, Dict.mem_keys.2 ⟨info, hk⟩, ?_⟩
  rw [← hid]
  exact hkeyed k info hk

/-- Attempts are filed, workers are filed, and active attempts name registered workers. -/
structure KnownInv (s : State) : Prop where
  dispatches : DispatchInv s
  keyed : WorkerRegistry.Keyed s.registry
  known : KnownWorkers s

theorem knownInv_init : KnownInv {} := by
  refine ⟨dispatchInv_init, WorkerRegistry.keyed_empty, fun id r hr => ?_⟩
  cases hr

theorem known_place (hs : KnownInv s) {ranking : Ranking} {now : ℚ} {execId : String}
    {p : PlacementDecision} {rest : List PlacementDecision}
    (hchoose : (s.promoteSpare f).1.choose cfg w (s.promoteSpare f).2 ranking now =
      some (p :: rest))
    (hrec : Recorded (s.promoteSpare f).1 s' w (s.promoteSpare f).2 execId p rest)
    (hreg : s'.registry = s.registry) : KnownWorkers s' := by
  have hspare : (s.promoteSpare f).1.registry = s.registry := (promoteSpare_frame s f).2.1
  obtain ⟨r, hopened, hget⟩ := getAttempt_recorded hrec
  rw [attempts_promoteSpare] at hget hopened
  intro id r' hr' hactive x hx
  rw [hget] at hr'
  rw [hreg]
  split_ifs at hr' with hid
  · -- the new attempt names the chosen workers
    obtain rfl := Option.some.inj hr'
    rw [hopened.fixed.names x] at hx
    obtain ⟨q, hq, rfl⟩ := names_newGroup rfl rfl hx
    rw [← hspare]
    exact registered_of_choose (hspare ▸ hs.keyed) hchoose q hq
  · exact hs.known id r' hr' hactive x hx

/-- The calls for a worker's outputs and failures remove nobody. -/
theorem keys_reported {P : String → Prop} {r r' : WorkerRegistry}
    (h : Reported cfg P r r') : k ∈ r'.workers.keys ↔ k ∈ r.workers.keys := by
  cases h with
  | same => exact Iff.rfl
  | outputs wid hashes =>
    exact WorkerRegistry.mem_keys_of_rewrites (WorkerRegistry.rewrites_addWorkerHashes _ wid hashes)
  | failures ids now hids =>
    clear hids
    induction ids generalizing r with
    | nil => exact Iff.rfl
    | cons y ids ih =>
      exact ih.trans (WorkerRegistry.mem_keys_of_rewrites
        (WorkerRegistry.rewrites_updateHealth r y _ fun _ _ => rfl))

theorem not_inUse_restoreAttempts (h : s'.attempts = State.restoreAttempts reg) :
    ¬ s'.InUse k := by
  intro huse
  obtain ⟨id, r, hr, hruns⟩ := inUse_iff.1 huse
  rw [h] at hr
  rw [AttemptRecord.runsOn, not_active_restoreAttempts hr] at hruns
  cases hruns

/-- **When a step releases the attempts of the workers it removes.** -/
theorem releasesRemoved_iff (hs : KnownInv s) (h : step cfg s a = some s') :
    ReleasesRemoved s s' ↔ RemovesUnused cfg s a := by
  have hother (ha : (∀ op, a ≠ .registryOp op) ∧ ∀ now, a ≠ .evictionPass now) :
      ReleasesRemoved s s' := by
    intro k hk hgone
    cases step_registryStep hs.dispatches h with
    | reported w f d hat hreg => exact absurd ((keys_reported hreg).2 hk) hgone
    | evicted now he hreg => exact absurd he (ha.2 now)
    | called op he hreg => exact absurd he (ha.1 op)
    | restarted now he hreg =>
      subst he
      obtain rfl := Option.some.inj h
      exact not_inUse_restoreAttempts rfl
    | same hreg => exact absurd (hreg ▸ hk) hgone
  cases a with
  | registryOp op =>
    obtain rfl := Option.some.inj h
    exact Iff.rfl
  | evictionPass now =>
    obtain rfl := Option.some.inj h
    have hreg : (s.evictionPass cfg now).registry =
        (s.registry.evictExpiredWorkers cfg.registry none now).1 :=
      registry_foldl_handleWorkerLost _ _
    have hkeys : ∀ k ∈ s.registry.workers.keys,
        (k ∉ (s.evictionPass cfg now).registry.workers.keys ↔
          k ∈ (s.registry.evictExpiredWorkers cfg.registry none now).2) := by
      intro k hk
      rw [hreg, WorkerRegistry.mem_keys_evictExpiredWorkers, and_iff_right hk, not_not]
    constructor
    · intro hreleases k hk r hr hruns
      by_contra hnone
      have hkey := WorkerRegistry.mem_keys_of_evicted hk
      refine hreleases k hkey ((hkeys k hkey).2 hk) ?_
      obtain ⟨id, hid⟩ := Dict.mem_values.1 hr
      obtain ⟨hactive, -⟩ := AttemptRecord.runsOn_iff.1 hruns
      have hkept := (active_evictionPass hs.dispatches.filed).2
        ⟨⟨hid, hactive⟩, fun x hx hnames => hnone ⟨x, hx, hnames⟩⟩
      exact inUse_iff.2 ⟨id, r, hkept.1, hruns⟩
    · intro hg k hkey hgone huse
      obtain ⟨id, r, hr, hruns⟩ := inUse_iff.1 huse
      obtain ⟨hactive, -⟩ := AttemptRecord.runsOn_iff.1 hruns
      obtain ⟨⟨hid, -⟩, hnone⟩ := (active_evictionPass hs.dispatches.filed).1 ⟨hr, hactive⟩
      obtain ⟨x, hx, hnames⟩ := hg k ((hkeys k hkey).1 hgone) r (Dict.mem_values.2 ⟨id, hid⟩) hruns
      exact hnone x hx hnames
  | _ =>
    exact iff_of_true (hother ⟨fun op he => (by cases he), fun now he => (by cases he)⟩) trivial

theorem known_step (hs : KnownInv s) (hreleases : ReleasesRemoved s s')
    (h : step cfg s a = some s') : KnownWorkers s' := by
  cases step_attemptStep hs.dispatches h with
  | placed v ranking now execId f p rest ha hpc hchoose hrec =>
    subst ha
    exact known_place hs hchoose hrec (registry_place h)
  | restarted ha hattempts hruns =>
    intro id r hr hactive
    rw [hattempts] at hr
    rw [not_active_restoreAttempts hr] at hactive
    cases hactive
  | answered v f d reply ha hat hreports hmarked =>
    exact hs.known.of_kept (fun id r => active_of_marked hmarked) hreleases
  | evicted ha hmarked => exact hs.known.of_kept (fun id r => active_of_marked hmarked) hreleases
  | same hattempts =>
    refine hs.known.of_kept (fun id r hr _ => ?_) hreleases
    rw [hattempts] at hr
    exact hr

theorem knownInv_step (hs : KnownInv s) (hg : RemovesUnused cfg s a) (h : step cfg s a = some s') :
    KnownInv s' :=
  ⟨dispatchInv_step hs.dispatches h, keyed_step hs.dispatches hs.keyed h,
    known_step hs ((releasesRemoved_iff hs h).2 hg) h⟩

/-- **No attempt runs on a worker that is not registered.** In every run in which calls remove
unused workers only, and evicted workers are named as they are filed, the workers of active attempts
are registered. The next step releases the attempts of the workers that it removes if and only if it
is such a step. -/
theorem known_workers {as : List Action} (h : Along (step cfg) (RemovesUnused cfg) {} as)
    (hrun : runSteps cfg {} as = some s) :
    KnownWorkers s ∧ ∀ a s', step cfg s a = some s' →
      (ReleasesRemoved s s' ↔ RemovesUnused cfg s a) := by
  have hinv : KnownInv s :=
    h.invariant (fun _ _ _ hs hg hstep => knownInv_step hs hg hstep) knownInv_init hrun
  exact ⟨hinv.known, fun a s' hstep => releasesRemoved_iff hinv hstep⟩

/-- A worker that executes an attempt is evicted, and the attempt is lost. -/
theorem known_workers_evicted :
    ∃ s s' : State, runSteps (sampleConfig 1) {} (dispatchSample ["a"] "w") = some s ∧
      step (sampleConfig 1) s (.evictionPass 1000) = some s' ∧ s.InUse "a" ∧
      "a" ∈ s.registry.workers.keys ∧ "a" ∉ s'.registry.workers.keys ∧ ReleasesRemoved s s' := by
  have hrun : (runSteps (sampleConfig 1) {} (dispatchSample ["a"] "w")).map (fun s =>
      (decide (s.InUse "a"), decide ("a" ∈ s.registry.workers.keys),
        decide ("a" ∈ (s.evictionPass (sampleConfig 1) 1000).registry.workers.keys),
        decide (RemovesUnused (sampleConfig 1) s (.evictionPass 1000)))) =
      some (true, true, false, true) := by
    decide +kernel
  obtain ⟨s, hs, hv⟩ := Option.map_eq_some_iff.1 hrun
  obtain ⟨huse, hv⟩ := Prod.mk.inj hv
  obtain ⟨hkey, hv⟩ := Prod.mk.inj hv
  obtain ⟨hgone, hg⟩ := Prod.mk.inj hv
  have hunused : Along (step (sampleConfig 1)) (RemovesUnused (sampleConfig 1)) {}
      (dispatchSample ["a"] "w") := by decide +kernel
  exact ⟨s, _, hs, rfl, of_decide_eq_true huse, of_decide_eq_true hkey, of_decide_eq_false hgone,
    ((known_workers hunused hs).2 (.evictionPass 1000) _ rfl).2 (of_decide_eq_true hg)⟩

/-- The endpoint unregisters a worker that executes an attempt. -/
theorem unregistered_in_use :
    ¬ ∀ (cfg : Config) (as : List Action) (a : Action) (s s' : State),
      runSteps cfg {} as = some s → step cfg s a = some s' → ReleasesRemoved s s' := by
  intro hclaim
  have hrun : (runSteps (sampleConfig 1) {} (dispatchSample ["a"] "w")).map (fun s =>
      decide (ReleasesRemoved s { s with
        registry := s.registry.apply (sampleConfig 1).registry (.unregisterWorker "a") })) =
      some false := by
    decide +kernel
  obtain ⟨s, hs, hv⟩ := Option.map_eq_some_iff.1 hrun
  exact of_decide_eq_false hv (hclaim _ _ (.registryOp (.unregisterWorker "a")) s _ hs rfl)

/-- A worker that introduced itself with a blank before its name is evicted, and its attempt goes
on. -/
example : ((runSteps (sampleConfig 1) {} (dispatchSample [" a"] "w" ++ [.evictionPass 1000])).map
    (fun s => (decide (s.InUse "a"), s.registry.workers.keys))) = some (true, []) := by
  decide +kernel

end Orchestrator

end Aidars
