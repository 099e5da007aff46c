import Aidars.Orchestrator.Exclusion

/-!
# Retry exclusion blames the right worker

A worker that was to blame for a failed attempt of a workload is excluded for good: the attempt
stays as it is (`convicts_step`), and the local variables of the run and the attempts of the
workload exclude its worker. Conversely, as long as no attempt of the workload is lost, nobody else
is excluded. Both hold along runs in which the failures of groups are those of their leaders and a
restart reads all attempts of the workload back (`exclusion_blames`). When another member of a group
fails, the leader is excluded in its place, and the member is selected again
(`member_selected_again`).
-/

namespace Aidars.Orchestrator

variable {cfg : Config} {s s' : State} {w v x m : String} {a : Action} {f f' : Frame}
  {d : Dispatch} {reg reg' : AttemptRegistry} {r r' : AttemptRecord}

/-! ## Settled attempts -/

theorem getAttempt_loseAttempts {id why : String} {ids : List String} (h : id ∉ ids) :
    (State.loseAttempts reg ids why x).getAttempt id = reg.getAttempt id := by
  induction ids generalizing reg with
  | nil => rfl
  | cons id' ids ih =>
    rw [List.mem_cons, not_or] at h
    refine (ih h.2).trans ?_
    show (reg.markLost id' (some why) [x]).getAttempt id = _
    rw [AttemptRegistry.markLost, AttemptRegistry.getAttempt_update, if_neg h.1]

theorem getAttempt_loseRunning {id why : String} {l : List AttemptRecord} (hfiled : FiledIds reg)
    (hr : reg.getAttempt id = some r) (hactive : r.status.isActive = false)
    (hl : ∀ a ∈ l, a ∈ reg.listRunningAttemptsForWorker x) :
    (State.loseAttempts reg (l.map (·.attemptId)) why x).getAttempt id = some r := by
  refine (getAttempt_loseAttempts fun hid => ?_).trans hr
  obtain ⟨a, ha, rfl⟩ := List.mem_map.1 hid
  obtain ⟨hmem, hocc⟩ := List.mem_filter.1 (hl a ha)
  obtain ⟨k, hk⟩ := Dict.mem_values.1 hmem
  rw [hfiled k a hk] at hr
  obtain rfl := Option.some.inj (hr.symm.trans hk)
  rw [AttemptRecord.occupies, hactive] at hocc
  cases hocc

theorem getAttempt_foldl_handleWorkerLost {id : String} {l : List String}
    (hfiled : FiledIds s.attempts) (hr : s.attempts.getAttempt id = some r)
    (hactive : r.status.isActive = false) :
    (l.foldl State.handleWorkerLost s).attempts.getAttempt id = some r := by
  induction l generalizing s with
  | nil => exact hr
  | cons x l ih =>
    refine ih (hfiled.of_marked (marked_handleWorkerLost s x)) ?_
    exact getAttempt_loseRunning hfiled hr hactive fun _ ha => ha

/-- **A step outside the runs leaves the attempts alone that are not active.** -/
theorem getAttempt_step_of_inactive {id : String} (hfiled : FiledIds s.attempts)
    (h : step cfg s a = some s') (hseg : a.segmentOf = none) (hrestart : a.isRestart = false)
    (hr : s.attempts.getAttempt id = some r) (hactive : r.status.isActive = false) :
    s'.attempts.getAttempt id = some r := by
  rcases outside_attempts h hseg hrestart with he | ⟨x, rfl⟩ | ⟨now, rfl⟩ | ⟨x, rfl⟩
  · rwa [he]
  · obtain rfl := Option.some.inj h
    exact getAttempt_loseRunning hfiled hr hactive fun _ ha => ha
  · obtain rfl := Option.some.inj h
    exact getAttempt_foldl_handleWorkerLost hfiled hr hactive
  · obtain rfl := Option.some.inj h
    unfold State.drainStart
    dsimp only
    split_ifs
    · exact hr
    · exact getAttempt_loseRunning hfiled hr hactive fun a ha => List.mem_of_mem_filter ha

theorem getAttempt_answered {reply : Reply} {id : String} (hfiled : FiledIds s.attempts)
    (hmarked : AttemptRegistry.Marked (Cause s w d reply) s.attempts reg') (hne : id ≠ d.attemptId)
    (hr : s.attempts.getAttempt id = some r) (hactive : r.status.isActive = false) :
    reg'.getAttempt id = some r := by
  refine hmarked.invariant (K := fun reg => reg.getAttempt id = some r) ?_ hr
  intro reg id' mark hreg hcause
  rw [AttemptRegistry.getAttempt_mark]
  split_ifs with hid
  · subst hid
    cases hcause with
    | succeeded => exact absurd rfl hne
    | failed => exact absurd rfl hne
    | lost => exact absurd rfl hne
    | superseded _ hne' hlisted =>
      obtain ⟨a, ha, hid, hother⟩ := hlisted
      obtain ⟨k, -, hk⟩ := List.mem_filterMap.1 ha
      have hk : s.attempts.getAttempt k = some a := hk
      rw [← hfiled k a hk, hid, hr] at hk
      obtain rfl := Option.some.inj hk
      rw [hactive] at hother
      cases hother
  · exact hreg

/-- The attempts of a workload are numbered from one in the order of their creation. -/
def Numbered (reg : AttemptRegistry) (w : String) : Prop :=
  reg.idsOf w = (List.range (reg.idsOf w).length).map fun i => makeAttemptId w (i + 1)

theorem Numbered.mem {id : String} (h : Numbered reg w) (hid : id ∈ reg.idsOf w) :
    ∃ n ≤ (reg.idsOf w).length, id = makeAttemptId w n := by
  rw [h] at hid
  obtain ⟨i, hi, rfl⟩ := List.mem_map.1 hid
  exact ⟨i + 1, List.mem_range.1 hi, rfl⟩

/-- The identifier of a new attempt, of any workload, is none of those in use. -/
theorem Numbered.ne_nextId {id : String} (h : Numbered reg w) (hid : id ∈ reg.idsOf w)
    (v : String) : id ≠ reg.nextId v := by
  obtain ⟨n, hn, rfl⟩ := h.mem hid
  intro he
  obtain ⟨rfl, hlen⟩ := makeAttemptId_inj he
  omega

theorem numbered_step (hs : DispatchInv s) (hg : BlamesLeader w s a) (h : step cfg s a = some s')
    (hn : Numbered s.attempts w) : Numbered s'.attempts w := by
  have hkept : s'.attempts.idsOf w = s.attempts.idsOf w → Numbered s'.attempts w := by
    intro he
    rw [Numbered, he]
    exact hn
  cases step_attemptStep hs h with
  | placed v ranking now execId f₀ p rest ha hpc hchoose hrec =>
    have hids := idsOf_recorded hrec w
    rw [attempts_promoteSpare] at hids
    split_ifs at hids with hwv
    · subst hwv
      rw [Numbered, hids, List.length_append, List.length_singleton, List.range_succ,
        List.map_append, ← hn]
      rfl
    · exact hkept hids
  | restarted ha hattempts hruns =>
    cases a with
    | restart now =>
      refine hkept ?_
      rw [hattempts, idsOf_restoreAttempts]
      exact List.filter_eq_self.2 hg
    | _ => cases ha
  | answered v f₀ d₀ reply ha hat hreports hmarked => exact hkept (hmarked.idsOf w)
  | evicted ha hmarked => exact hkept (hmarked.idsOf w)
  | same hattempts => exact hkept (by rw [hattempts])

/-- The attempt of the workload has failed on its worker, who is excluded for it, and no run waits
for its answer. -/
structure Convicts (s : State) (w m id : String) : Prop where
  listed : id ∈ s.attempts.idsOf w
  record : ∃ r, s.attempts.getAttempt id = some r ∧ r.status = .failed ∧
    exhausts r.failureCategory = true ∧ r.workerId = some m
  settled : ∀ f d, AtAttempt s w f d → d.attemptId ≠ id

theorem loseInFlight_of_inactive (h : r.status.isActive = false) : State.loseInFlight r = r :=
  if_neg (by simp [h])

theorem convicts_restart {id : String} {now : ℚ} (hg : BlamesLeader w s (.restart now))
    (hc : Convicts s w m id) : Convicts (s.restart cfg now) w m id := by
  obtain ⟨hlisted, ⟨r, hr, hst, hex, hworker⟩, -⟩ := hc
  have hback := hg id hlisted
  rw [hr, Option.any_some] at hback
  obtain ⟨r₁, hr₁⟩ := Option.isSome_iff_exists.1 hback
  have hst₁ := (StateStore.reloadAttempt_some hr₁).2.2.2.1.trans hst
  have hget := getAttempt_restoreAttempts.2 ⟨r, hr, r₁, hr₁, rfl⟩
  rw [loseInFlight_of_inactive (by rw [hst₁]; rfl)] at hget
  refine ⟨?_, ⟨r₁, hget, hst₁, ?_, ?_⟩, fun f d hat => ?_⟩
  · show id ∈ (State.restoreAttempts s.attempts).idsOf w
    rw [idsOf_restoreAttempts, List.filter_eq_self.2 hg]
    exact hlisted
  · rw [(StateStore.reloadAttempt_failure hr₁).1]
    exact hex
  · rw [(StateStore.reloadAttempt_workers hr₁).1]
    exact hworker
  · exact absurd hat (not_atAttempt_of_returned (.inl rfl))

theorem convicts_step_of_not_restart {id : String} (hs : DispatchInv s) (hn : Numbered s.attempts w)
    (hrestart : a.isRestart = false) (h : step cfg s a = some s') (hc : Convicts s w m id) :
    Convicts s' w m id := by
  obtain ⟨hlisted, ⟨r, hr, hst, hex, hworker⟩, hsettled⟩ := hc
  have hactive : r.status.isActive = false := by rw [hst]; rfl
  obtain ⟨n, -, hform⟩ := hn.mem hlisted
  -- a dispatch of another workload has another identifier, and so has the next attempt
  have hother : ∀ v f d, AtAttempt s v f d → id ≠ d.attemptId := by
    intro v f d hat
    by_cases hv : v = w
    · exact fun he => hsettled f d (hv ▸ hat) he.symm
    · obtain ⟨k, hk⟩ := (hs.own v f d hat).id
      rw [hform, hk]
      exact fun he => hv (makeAttemptId_inj he).1.symm
  have hleft : ∀ f d, AtAttempt s' w f d → d.attemptId ≠ id := by
    intro f d hat
    cases step_heldStep hs h hat with
    | held f₀ d₀ hat₀ hid hworkers =>
      rw [hid]
      exact hsettled f₀ d₀ hat₀
    | placed ranking now execId f₀ p rest ha hpc hchoose hmade hid hattempts =>
      rw [hid]
      exact (hn.ne_nextId hlisted w).symm
  have hkept : s'.attempts.idsOf w = s.attempts.idsOf w →
      s'.attempts.getAttempt id = some r → Convicts s' w m id := by
    intro hids hr'
    exact ⟨by rw [hids]; exact hlisted, ⟨r, hr', hst, hex, hworker⟩, hleft⟩
  cases step_attemptStep hs h with
  | placed v ranking now execId f₀ p rest ha hpc hchoose hrec =>
    obtain ⟨r₁, -, hget⟩ := getAttempt_recorded hrec
    rw [attempts_promoteSpare] at hget
    refine ⟨?_, ⟨r, ?_, hst, hex, hworker⟩, hleft⟩
    · rw [idsOf_recorded hrec, attempts_promoteSpare]
      split_ifs with hwv
      · rw [hwv] at hlisted
        exact List.mem_append_left _ hlisted
      · exact hlisted
    · rw [hget, if_neg (hn.ne_nextId hlisted v)]
      exact hr
  | restarted ha =>
    rw [ha] at hrestart
    cases hrestart
  | answered v f₀ d₀ reply ha hat hreports hmarked =>
    exact hkept (hmarked.idsOf w) (getAttempt_answered hs.filed hmarked (hother v f₀ d₀ hat) hr
      hactive)
  | evicted ha hmarked =>
    exact hkept (hmarked.idsOf w) (getAttempt_step_of_inactive hs.filed h ha hrestart hr hactive)
  | same hattempts => exact hkept (by rw [hattempts]) (by rw [hattempts]; exact hr)

/-- **An attempt that convicts a worker does so for good.** -/
theorem convicts_step {id : String} (hs : DispatchInv s) (hn : Numbered s.attempts w)
    (hg : BlamesLeader w s a) (h : step cfg s a = some s') (hc : Convicts s w m id) :
    Convicts s' w m id := by
  cases hrestart : a.isRestart with
  | false => exact convicts_step_of_not_restart hs hn hrestart h hc
  | true =>
    obtain ⟨now, rfl, rfl⟩ := restart_of_step hrestart h
    exact convicts_restart hg hc

/-! ## Whom the attempts exclude -/

/-- The attempt goes over into one that excludes no worker anew. -/
structure Spares (r r' : AttemptRecord) : Prop where
  worker : r'.workerId = r.workerId
  category : exhausts r'.failureCategory = true → exhausts r.failureCategory = true
  unavailable : r'.executionGroup.map (·.unavailableWorkerIds) =
    r.executionGroup.map (·.unavailableWorkerIds)

theorem Spares.refl (r : AttemptRecord) : Spares r r := ⟨rfl, id, rfl⟩

theorem Spares.trans {r₁ r₂ r₃ : AttemptRecord} (h₁ : Spares r₁ r₂) (h₂ : Spares r₂ r₃) :
    Spares r₁ r₃ :=
  ⟨h₂.worker.trans h₁.worker, fun h => h₁.category (h₂.category h),
    h₂.unavailable.trans h₁.unavailable⟩

theorem unavailable_setGroupState (st : GroupState) (g : Option ExecutionGroup) :
    (AttemptRegistry.setGroupState st g).map (·.unavailableWorkerIds) =
      g.map (·.unavailableWorkerIds) := by
  cases g <;> rfl

theorem spares_succeeded (result : WorkloadExecutionResult) (r : AttemptRecord) :
    Spares r ((Mark.succeeded result).write r) := ⟨rfl, id, unavailable_setGroupState _ _⟩

theorem spares_failed {c : Option FailureCategory} (hc : exhausts c = false)
    (message : Option String) (result : Option WorkloadExecutionResult) (r : AttemptRecord) :
    Spares r ((Mark.failed c message result).write r) := by
  refine ⟨rfl, fun h => ?_, unavailable_setGroupState _ _⟩
  have h : exhausts c = true := h
  rw [hc] at h
  cases h

/-- Every attempt of the registry comes from one, and excludes no worker anew. -/
def SparesAll (reg reg' : AttemptRegistry) : Prop :=
  ∀ id r', reg'.getAttempt id = some r' → ∃ r, reg.getAttempt id = some r ∧ Spares r r'

theorem SparesAll.refl (reg : AttemptRegistry) : SparesAll reg reg :=
  fun _ r hr => ⟨r, hr, .refl r⟩

theorem SparesAll.mark {id : String} {mark : Mark} (h : SparesAll reg reg')
    (hmark : ∀ r, Spares r (mark.write r)) : SparesAll reg (reg'.mark id mark) := by
  intro id' r' hr'
  rw [AttemptRegistry.getAttempt_mark] at hr'
  split_ifs at hr' with hid
  · obtain ⟨r₁, hr₁, rfl⟩ := Option.map_eq_some_iff.1 hr'
    obtain ⟨r, hr, hspares⟩ := h id r₁ hr₁
    exact ⟨r, by rw [hid]; exact hr, hspares.trans (hmark r₁)⟩
  · exact h id' r' hr'

theorem sparesAll_supersede (h : SparesAll reg reg') (ids : List String) :
    SparesAll reg (State.supersede reg' ids) := by
  induction ids generalizing reg' with
  | nil => exact h
  | cons id ids ih =>
    have hfirst : SparesAll reg (reg'.markFailed id (some .executionFailure)
        (some "Superseded by primary completion")) := h.mark (spares_failed rfl _ none)
    exact ih hfirst

/-- A success leaves nobody excluded anew. -/
theorem sparesAll_succeeded {id : String} (h : Settled w id reg .succeeded reg') :
    SparesAll reg reg' := by
  have hmark : ∀ reg₁ result, SparesAll reg reg₁ →
      SparesAll reg (reg₁.mark id (.succeeded result)) :=
    fun reg₁ result hreg => hreg.mark (spares_succeeded result)
  cases h with
  | checkpointed result => exact hmark reg result (.refl reg)
  | succeeded result ids hids => exact hmark _ result (sparesAll_supersede (.refl reg) ids)

theorem spares_settled {id id' : String} {st : AttemptStatus} (h : Settled w id reg st reg')
    (hne : id' ≠ id) (hr' : reg'.getAttempt id' = some r') :
    ∃ r, reg.getAttempt id' = some r ∧ Spares r r' := by
  have hother : ∀ mark : Mark, (reg.mark id mark).getAttempt id' = reg.getAttempt id' := by
    intro mark
    rw [AttemptRegistry.getAttempt_mark, if_neg hne]
  cases h with
  | failed c message result =>
    exact ⟨r', (hother (.failed c message result)).symm.trans hr', .refl r'⟩
  | lost message u => exact ⟨r', (hother (.lost message u)).symm.trans hr', .refl r'⟩
  | checkpointed result => exact sparesAll_succeeded (w := w) (.checkpointed result) id' r' hr'
  | succeeded result ids hids => exact sparesAll_succeeded (.succeeded result ids hids) id' r' hr'

/-- The attempt excludes workers of `P` only. -/
def RecordBlames (P : String → Prop) (r : AttemptRecord) : Prop :=
  (exhausts r.failureCategory = true → ∀ x, r.workerId = some x → P x) ∧
    ∀ u, r.executionGroup.map (·.unavailableWorkerIds) = some u → u = ∅

/-- The attempts of the workload exclude workers of `P` only. -/
def LedgerBlames (P : String → Prop) (reg : AttemptRegistry) (w : String) : Prop :=
  ∀ id ∈ reg.idsOf w, ∀ r, reg.getAttempt id = some r → RecordBlames P r

theorem LedgerBlames.exhausted {P : String → Prop} (h : LedgerBlames P reg w)
    (hx : x ∈ exhaustedWorkerIds (reg.listAttemptsForWorkload w)) : P x := by
  have hrecord : ∀ r ∈ (reg.listAttemptsForWorkload w).filter
      (fun r => exhausts r.failureCategory), exhausts r.failureCategory = true ∧
        ∃ id ∈ reg.idsOf w, reg.getAttempt id = some r := by
    intro r hr
    obtain ⟨hlist, hex⟩ := List.mem_filter.1 hr
    obtain ⟨id, hid, hget⟩ := List.mem_filterMap.1 hlist
    exact ⟨hex, id, hid, hget⟩
  rcases List.mem_append.1 (PySet.mem_ofList.1 hx) with hx | hx
  · obtain ⟨r, hr, hworker⟩ := List.mem_filterMap.1 hx
    obtain ⟨hex, id, hid, hget⟩ := hrecord r (List.mem_of_mem_filter hr)
    exact (h id hid r hget).1 hex x hworker
  · obtain ⟨r, hr, hmem⟩ := List.mem_flatMap.1 hx
    obtain ⟨-, id, hid, hget⟩ := hrecord r hr
    split at hmem
    · rename_i g hg
      have hempty := (h id hid r hget).2 g.unavailableWorkerIds (by rw [hg]; rfl)
      rw [hempty] at hmem
      exact absurd hmem (PySet.notMem_empty x)
    · cases hmem

theorem exhausted_of_convicts {id : String} (hc : Convicts s w m id) :
    m ∈ exhaustedWorkerIds (s.attempts.listAttemptsForWorkload w) := by
  obtain ⟨hlisted, ⟨r, hr, hst, hex, hworker⟩, -⟩ := hc
  refine PySet.mem_ofList.2 (List.mem_append_left _ (List.mem_filterMap.2 ⟨r, ?_, hworker⟩))
  refine List.mem_filter.2 ⟨List.mem_filter.2 ⟨?_, hex⟩, ?_⟩
  · exact List.mem_filterMap.2 ⟨id, hlisted, hr⟩
  · rw [hst]
    rfl

theorem LedgerBlames.mono {P Q : String → Prop} (h : LedgerBlames P reg w) (hPQ : ∀ x, P x → Q x) :
    LedgerBlames Q reg w :=
  fun id hid r hr => ⟨fun hex x hx => hPQ x ((h id hid r hr).1 hex x hx), (h id hid r hr).2⟩

theorem RecordBlames.spared {P : String → Prop} (h : RecordBlames P r) (hspares : Spares r r') :
    RecordBlames P r' := by
  refine ⟨fun hex x hx => ?_, fun u hu => ?_⟩
  · exact h.1 (hspares.category hex) x (hspares.worker ▸ hx)
  · exact h.2 u (hspares.unavailable ▸ hu)

/-- A new attempt excludes nobody, unless it is lost. -/
theorem recordBlames_opened {P : String → Prop} {p : PlacementDecision}
    {rest : List PlacementDecision} {execId : String} {ids : List String}
    (h : Opened (assignedRecord reg w p (State.newGroup f execId (p :: rest))) ids r)
    (hst : r.status ≠ .lost) : RecordBlames P r := by
  cases h with
  | running =>
    refine ⟨fun hex => ?_, fun u hu => ?_⟩
    · cases hex
    · have hu : (AttemptRegistry.setGroupState .running (State.newGroup f execId (p :: rest))).map
          (·.unavailableWorkerIds) = some u := hu
      rw [unavailable_setGroupState] at hu
      unfold State.newGroup at hu
      split_ifs at hu
      · exact (Option.some.inj hu).symm
      · cases hu
  | lost message missing => exact absurd rfl hst

theorem recordBlames_concluded {P : String → Prop} {now : ℚ} (hok : DispatchOk s.attempts w d)
    (hpc : s.runs.get? w = some (.dispatch f d)) (hcon : Concluded s s' w f d)
    (hr' : s'.attempts.getAttempt d.attemptId = some r') (hst : r'.status ≠ .lost)
    (hP : ∀ r, s.attempts.getAttempt d.attemptId = some r → RecordBlames P r)
    (hnew : ∀ m, BlamedBy s (.resume w now) s' w m → P m) : RecordBlames P r' := by
  obtain ⟨r₀, hr₀, hworker, -⟩ := hok.recorded
  have hfailed : ∀ c message result,
      s'.attempts = s.attempts.markFailed d.attemptId c message result →
        r' = (Mark.failed c message result).write r₀ := by
    intro c message result ha
    rw [ha, AttemptRegistry.markFailed, AttemptRegistry.getAttempt_update, if_pos rfl, hr₀] at hr'
    exact (Option.some.inj hr').symm
  cases hcon with
  | waits r t heq hlost =>
    rw [heq] at hr'
    exact hP r' hr'
  | lost ids message u hids ha =>
    rw [ha, AttemptRegistry.markLost, AttemptRegistry.getAttempt_update, if_pos rfl, hr₀] at hr'
    obtain rfl := Option.some.inj hr'
    exact absurd rfl hst
  | blamed category message result hids ha hex hculprits =>
    have heq := hfailed _ _ _ ha
    refine ⟨fun _ x hx => hnew x ?_, fun u hu => ?_⟩
    · refine (blamedBy_resume hpc x).2 ⟨r', hr', ?_, category, ?_, hex, (hculprits x).2 ?_⟩
      · rw [heq]
        rfl
      · rw [heq]
        rfl
      · rw [heq] at hx
        exact Option.some.inj (hx.symm.trans hworker)
    · rw [heq] at hu
      exact (hP r₀ hr₀).2 u ((unavailable_setGroupState .failed _).symm.trans hu)
  | failed c message result hids ha hex =>
    rw [hfailed _ _ _ ha]
    exact (hP r₀ hr₀).spared (spares_failed hex message result r₀)
  | succeeded hids ha =>
    obtain ⟨r, hr, hspares⟩ := sparesAll_succeeded ha _ r' hr'
    exact (hP r hr).spared hspares

/-- An attempt that a restart reads back. -/
theorem recordBlames_restored {P : String → Prop} (hP : RecordBlames P r)
    (hback : StateStore.reloadAttempt r = some r')
    (hst : (State.loseInFlight r').status ≠ .lost) : RecordBlames P (State.loseInFlight r') := by
  cases hactive : r'.status.isActive with
  | true =>
    unfold State.loseInFlight at hst
    rw [if_pos hactive] at hst
    exact absurd rfl hst
  | false =>
    rw [loseInFlight_of_inactive hactive]
    obtain ⟨hcategory, hun⟩ := StateStore.reloadAttempt_failure hback
    exact hP.spared ⟨(StateStore.reloadAttempt_workers hback).1, fun h => hcategory ▸ h, hun⟩

/-- The attempts of the workload after a step that loses none of them. -/
theorem ledgerBlames_step {P : String → Prop} (hs : DispatchInv s) (hn : Numbered s.attempts w)
    (hg : BlamesLeader w s a) (h : step cfg s a = some s') (hlost : ¬ HasLost s' w)
    (hP : LedgerBlames P s.attempts w) (hnew : ∀ m, BlamedBy s a s' w m → P m) :
    LedgerBlames P s'.attempts w := by
  intro id hid r' hr'
  have hst : r'.status ≠ .lost := fun hst => hlost ⟨id, hid, r', hr', hst⟩
  have hspared : (∃ r, s.attempts.getAttempt id = some r ∧ Spares r r') →
      id ∈ s.attempts.idsOf w → RecordBlames P r' := by
    rintro ⟨r, hr, hspares⟩ hid
    exact (hP id hid r hr).spared hspares
  have hsame : s'.attempts = s.attempts → RecordBlames P r' := by
    intro he
    rw [he] at hid hr'
    exact hspared ⟨r', hr', .refl r'⟩ hid
  cases hrestart : a.isRestart with
  | true =>
    obtain ⟨now, rfl, rfl⟩ := restart_of_step hrestart h
    have hid : id ∈ (State.restoreAttempts s.attempts).idsOf w := hid
    have hr' : (State.restoreAttempts s.attempts).getAttempt id = some r' := hr'
    rw [idsOf_restoreAttempts] at hid
    have hlisted := List.mem_of_mem_filter hid
    obtain ⟨r, hr, r₁, hr₁, rfl⟩ := getAttempt_restoreAttempts.1 hr'
    exact recordBlames_restored (hP id hlisted r hr) hr₁ hst
  | false =>
    -- an attempt of the workload is none of a dispatch of another one
    have hother : ∀ v f d, AtAttempt s v f d → v ≠ w → id ∈ s.attempts.idsOf w →
        id ≠ d.attemptId := by
      intro v f d hat hv hid
      obtain ⟨n, -, hform⟩ := hn.mem hid
      obtain ⟨k, hk⟩ := (hs.own v f d hat).id
      rw [hform, hk]
      exact fun he => hv (makeAttemptId_inj he).1.symm
    cases hseg : a.segmentOf with
    | none =>
      have hmarked := step_evicts h hseg hrestart
      rw [hmarked.idsOf w] at hid
      obtain ⟨r, hr, -⟩ := (hmarked.record id).2 r' hr'
      obtain ⟨r₁, hr₁, hloses, -⟩ := (step_attempts h hseg hrestart).record id r hr
      obtain rfl := Option.some.inj (hr'.symm.trans hr₁)
      rcases hloses with rfl | ⟨-, hlost⟩
      · exact hP id hid _ hr
      · exact absurd hlost hst
    | some u =>
      cases segment_of_eq hseg with
      | startRun => exact hsame (startRun_cases h).2.1
      | place ranking now execId =>
        obtain ⟨f₀, hpc, -, ⟨-, ha⟩ | ⟨p, rest, -, hrec⟩⟩ := place_spec h
        · exact hsame ha
        · obtain ⟨r₁, hopen, hget⟩ := getAttempt_recorded hrec
          have hids := idsOf_recorded hrec w
          rw [attempts_promoteSpare] at hget hids
          rw [hget] at hr'
          split_ifs at hr' with hnext
          · obtain rfl := Option.some.inj hr'
            exact recordBlames_opened hopen hst
          · refine hspared ⟨r', hr', .refl r'⟩ ?_
            rw [hids] at hid
            split_ifs at hid with hwv
            · rw [← hwv] at hid hnext
              refine (List.mem_append.1 hid).resolve_right fun hid => ?_
              exact hnext (List.mem_singleton.1 hid)
            · exact hid
      | callEvent i event =>
        obtain ⟨f', d', c, phase, -, rfl⟩ := advanceCall_cases h
        exact hsame rfl
      | resume now =>
        obtain ⟨f, d, reply, hpc, -, -, hhandled⟩ := resume_cases h
        cases hhandled with
        | drained r t heq => exact hsame (by rw [heq]; rfl)
        | settled st hattempts =>
          rw [hattempts.moves.idsOf w] at hid
          by_cases hown : id = d.attemptId
          · have hv : u = w := by
              by_contra hv
              exact hother u f d (.inl hpc) hv hid hown
            subst hv
            rw [hown] at hid hr'
            have hdispatch : s.dispatchOf u = some d := by rw [State.dispatchOf, hpc]
            exact recordBlames_concluded (hs.own u f d (.inl hpc)) hpc
              (resume_concluded hpc (hg rfl d hdispatch) h) hr' hst (hP _ hid) hnew
          · exact hspared (spares_settled hattempts hown hr') hid
      | drainResume now =>
        obtain ⟨f, d, ids, message, u, hat, -, ha⟩ := drainResume_excludes hs.plain h
        rw [ha] at hid hr'
        by_cases hown : id = d.attemptId
        · rw [hown, AttemptRegistry.markLost, AttemptRegistry.getAttempt_update, if_pos rfl] at hr'
          obtain ⟨r₀, -, rfl⟩ := Option.map_eq_some_iff.1 hr'
          exact absurd rfl hst
        · rw [AttemptRegistry.markLost, AttemptRegistry.getAttempt_update, if_neg hown] at hr'
          exact hspared ⟨r', hr', .refl r'⟩ hid
      | finishRun => exact hsame (finishRun_cases h).2.2.2.1

/-! ## Runs -/

theorem convicts_of_blamedBy (hs : DispatchInv s) (hg : BlamesLeader w s a)
    (h : step cfg s a = some s') (hm : BlamedBy s a s' w m) :
    (∃ id, Convicts s' w m id) ∧ ∀ f', s'.frameOf w = some f' → m ∈ f'.exhaustedWorkerIds := by
  obtain ⟨⟨now, rfl⟩, d, hd, r, hr, hst, category, hc, hex, hculprit⟩ := hm
  obtain ⟨f, d₁, reply, hpc, -⟩ := resume_cases h
  have hdispatch : s.dispatchOf w = some d₁ := by rw [State.dispatchOf, hpc]
  obtain rfl := Option.some.inj (hd.symm.trans hdispatch)
  have hok := hs.own w f d (.inl hpc)
  have hex : exhausts r.failureCategory = true := by
    rw [Option.mem_def.1 hc]
    exact hex
  obtain ⟨category', message, result, hc', hids, ha, hculprits⟩ :=
    (resume_concluded hpc (hg rfl d hdispatch) h).of_failed hr hst hex
  obtain rfl := Option.some.inj (hc.symm.trans hc')
  obtain rfl := (hculprits m).1 hculprit
  refine ⟨⟨d.attemptId, ?_, ⟨r, hr, hst, hex, ?_⟩, fun f' d' hat => ?_⟩, fun f' hf' => ?_⟩
  · rw [ha]
    exact hok.listed
  · obtain ⟨r₀, hr₀, hworker, -⟩ := hok.recorded
    rw [ha, AttemptRegistry.markFailed, AttemptRegistry.getAttempt_update, if_pos rfl, hr₀] at hr
    obtain rfl := Option.some.inj hr
    exact hworker
  · exact absurd hat hids.not_atAttempt
  · exact (hids.frame hf' _).2 (.inr (List.mem_singleton_self _))

theorem NeverLost.of_append {as : List Action} (h : NeverLost cfg (as ++ [a]) w) :
    NeverLost cfg as w :=
  fun as₁ s₁ hpre => h as₁ s₁ (hpre.trans (List.prefix_append as [a]))

/-- Workers that were to blame are excluded; and while no attempt is lost, only they are. -/
structure BlameInv (cfg : Config) (w : String) (as : List Action) (s : State) : Prop where
  groups : GroupInv s
  numbered : Numbered s.attempts w
  convicted : ∀ m, WasToBlame cfg as w m → (∃ id, Convicts s w m id) ∧
    ∀ f, s.frameOf w = some f → m ∈ f.exhaustedWorkerIds
  ledger : NeverLost cfg as w → LedgerBlames (WasToBlame cfg as w) s.attempts w
  frame : NeverLost cfg as w → ∀ f, s.frameOf w = some f →
    ∀ x ∈ f.exhaustedWorkerIds, WasToBlame cfg as w x

theorem blameInv_init : BlameInv cfg w [] {} := by
  refine ⟨groupInv_init, rfl, ?_, fun _ id hid => ?_, fun _ f hf => ?_⟩
  · rintro m ⟨as₁, a, s₁, s₂, hpre, -⟩
    have := List.prefix_nil.1 hpre
    simp at this
  · cases hid
  · cases hf

theorem blameInv_step {as : List Action} (hrun : runSteps cfg {} as = some s)
    (hs : BlameInv cfg w as s) (hg : BlamesLeader w s a) (h : step cfg s a = some s') :
    BlameInv cfg w (as ++ [a]) s' := by
  have hblame := fun m => @wasToBlame_step cfg s s' w m a as hrun h
  have hd := hs.groups.dispatches
  -- a restart ends the runs, so no frame is left after it
  have hrestart : ∀ f', s'.frameOf w = some f' → a.isRestart = false := by
    intro f' hf'
    cases a with
    | restart now =>
      obtain rfl := Option.some.inj h
      cases hf'
    | _ => rfl
  have hlost : NeverLost cfg (as ++ [a]) w → ¬ HasLost s' w := by
    intro hnever
    refine hnever (as ++ [a]) s' (List.prefix_refl _) ?_
    exact runFrom_append.2 ⟨s, hrun, runFrom_cons.2 ⟨s', h, rfl⟩⟩
  refine ⟨groupInv_step hs.groups h, numbered_step hd hg h hs.numbered, fun m hm => ?_,
    fun hnever => ?_, fun hnever f' hf' x hx => ?_⟩
  · rcases (hblame m).1 hm with hm | hm
    · obtain ⟨⟨id, hc⟩, hf⟩ := hs.convicted m hm
      refine ⟨⟨id, convicts_step hd hs.numbered hg h hc⟩, fun f' hf' => ?_⟩
      cases step_exclusion hd hg (hrestart f' hf') h hf' with
      | carried f hold hids hnot => exact (hids m).2 (hf f hold)
      | entered ha hids =>
        rw [hids]
        exact exhausted_of_convicts hc
      | vanished f hold hids hlost hnot => exact hids m (hf f hold)
      | blamed f d hold hids hblamed => exact (hids m).2 (.inl (hf f hold))
    · exact convicts_of_blamedBy hd hg h hm
  · refine ledgerBlames_step hd hs.numbered hg h (hlost hnever) ?_ fun m hm => ?_
    · exact (hs.ledger hnever.of_append).mono fun m hm => hm.append [a]
    · exact (hblame m).2 (.inr hm)
  · have hbefore : ∀ f, s.frameOf w = some f → x ∈ f.exhaustedWorkerIds →
        WasToBlame cfg (as ++ [a]) w x :=
      fun f hf hx => (hs.frame hnever.of_append f hf x hx).append [a]
    cases step_exclusion hd hg (hrestart f' hf') h hf' with
    | carried f hold hids hnot => exact hbefore f hold ((hids x).1 hx)
    | entered ha hids =>
      rw [hids] at hx
      exact ((hs.ledger hnever.of_append).exhausted hx).append [a]
    | vanished f hold hids hlost' hnot => exact absurd hlost' (hlost hnever)
    | blamed f d hold hids hblamed =>
      rcases (hids x).1 hx with hx | hx
      · exact hbefore f hold hx
      · exact (hblame x).2 (.inr ((hblamed x).2 hx))

/-- The workers of a placement are not excluded. -/
theorem choose_not_exhausted {ranking : Ranking} {now : ℚ} {ds : List PlacementDecision}
    (h : s.choose cfg w f ranking now = some ds) :
    ∀ d ∈ ds, d.selectedWorkerId ∉ f.exhaustedWorkerIds := by
  intro d hd
  obtain ⟨p, hp, hid, -⟩ := choose_eligible h d hd
  obtain ⟨info, hinfo, hprofile⟩ := List.mem_filterMap.1 hp
  obtain ⟨telemetry, -, rfl⟩ := Option.map_eq_some_iff.1 hprofile
  have hcandidate := (List.mem_filter.1 hinfo).2
  rw [Bool.and_eq_true] at hcandidate
  rw [← hid]
  exact of_decide_eq_true hcandidate.2

/-- A new attempt is for none of the workers that are excluded. -/
theorem BlameInv.selected {as : List Action} {id : String} (hs : BlameInv cfg w as s)
    (h : step cfg s a = some s') (hid : s'.attempts.idsOf w = s.attempts.idsOf w ++ [id]) :
    ∃ r, s'.attempts.getAttempt id = some r ∧ ∀ m, WasToBlame cfg as w m → r.names m = false := by
  obtain ⟨ranking, now, execId, f₀, ds, -, hpc, hchoose, r, hget, -, hnames⟩ :=
    placed_of_created hs.groups.dispatches h hid
  refine ⟨r, hget, fun m hm => ?_⟩
  cases hname : r.names m with
  | false => rfl
  | true =>
    obtain ⟨d, hd, rfl⟩ := hnames m hname
    obtain ⟨-, -, -, -, hexhausted⟩ := promoteSpare_retries s f₀
    have hnot := choose_not_exhausted hchoose d hd
    rw [hexhausted] at hnot
    exact absurd ((hs.convicted _ hm).2 f₀ (by rw [State.frameOf, hpc])) hnot

/-- **Retry exclusion blames the right worker** along every run in which the failures of the
workload's groups are those of their leaders and a restart reads all its attempts back: no new
attempt is for a worker that was to blame for an earlier one, and as long as no attempt is lost,
only workers that were to blame are excluded. -/
theorem exclusion_blames {as : List Action} (hleader : Along (step cfg) (BlamesLeader w) {} as)
    (h : runSteps cfg {} as = some s) : ExclusionBlames cfg as s w := by
  have hs : BlameInv cfg w as s := by
    refine hleader.history (H := fun as s => BlameInv cfg w as s) ?_ blameInv_init h
    exact fun as s a s' hrun hs hg hstep => blameInv_step hrun hs hg hstep
  refine ⟨fun a s' id hstep hid => hs.selected hstep hid, fun hnever x hx => ?_⟩
  rcases hx with ⟨f, hf, hx⟩ | hx
  · exact hs.frame hnever f hf x hx
  · exact (hs.ledger hnever).exhausted hx

/-- The result of a member of a group. -/
def memberResult (x : String) (failure : Option FailureCategory) : WorkloadExecutionResult where
  workloadId := "w"
  workerId := x
  success := failure.isNone
  outputAssetHashes := ∅
  executionDurationSeconds := 0
  failureCategory := failure

/-- The first two of three workers execute a workload as a group, and one of them reports that it
has exceeded its time limit. -/
def reportSample (x : String) : List Action :=
  ["a", "b", "c"].map (fun y => .registryOp (.registerWorker (sampleWorker y) 0)) ++
    [.createJob groupJob, .submitWorkload { sampleSpec "w" with jobId := some "j" },
      .admissionPass ["w"], .startRun "w", .place "w" sampleRanking 0 "group"] ++
    ["a", "b"].zipIdx.map fun (y, i) => .callEvent "w" i (.bareResult
      (memberResult y (if y = x then some .executionTimeout else none)))

theorem wasToBlame_resume {as : List Action} {now : ℚ} (hrun : runSteps cfg {} as = some s)
    (hstep : step cfg s (.resume w now) = some s')
    (h : ∃ d ∈ s.dispatchOf w, ∃ r ∈ s'.attempts.getAttempt d.attemptId, r.status = .failed ∧
      ∃ category ∈ r.failureCategory, exhausts (some category) = true ∧ m ∈ d.culprits category) :
    WasToBlame cfg (as ++ [.resume w now]) w m :=
  (wasToBlame_step hrun hstep).2 (.inr ⟨⟨now, rfl⟩, h⟩)

/-- After either report there is a next attempt, and the second worker is in it. -/
theorem report_retried {x : String} (hx : x = "a" ∨ x = "b") : ∃ s s' : State, ∃ r,
    runSteps (sampleConfig 3) {} (reportSample x ++ [.resume "w" 1]) = some s ∧
      WasToBlame (sampleConfig 3) (reportSample x ++ [.resume "w" 1]) "w" x ∧
      step (sampleConfig 3) s (.place "w" sampleRanking 1 "retry") = some s' ∧
      s'.attempts.idsOf "w" = s.attempts.idsOf "w" ++ ["w#2"] ∧
      s'.attempts.getAttempt "w#2" = some r ∧ r.names "b" = true := by
  have hrun : (runSteps (sampleConfig 3) {} (reportSample x)).bind (fun s₁ =>
      (step (sampleConfig 3) s₁ (.resume "w" 1)).bind fun s =>
      (step (sampleConfig 3) s (.place "w" sampleRanking 1 "retry")).bind fun s' =>
      (s'.attempts.getAttempt "w#2").map fun r => decide (
        (∃ d ∈ s₁.dispatchOf "w", ∃ r ∈ s.attempts.getAttempt d.attemptId, r.status = .failed ∧
          ∃ category ∈ r.failureCategory, exhausts (some category) = true ∧
            x ∈ d.culprits category) ∧
        s'.attempts.idsOf "w" = s.attempts.idsOf "w" ++ ["w#2"] ∧ r.names "b" = true)) =
      some true := by
    rcases hx with rfl | rfl <;> decide +kernel
  obtain ⟨s₁, hs₁, hv⟩ := Option.bind_eq_some_iff.1 hrun
  obtain ⟨s, hs, hv⟩ := Option.bind_eq_some_iff.1 hv
  obtain ⟨s', hs', hv⟩ := Option.bind_eq_some_iff.1 hv
  obtain ⟨r, hr, hv⟩ := Option.map_eq_some_iff.1 hv
  obtain ⟨hfailed, hids, hnames⟩ := of_decide_eq_true hv
  exact ⟨s, s', r, runFrom_append.2 ⟨s₁, hs₁, runFrom_cons.2 ⟨s, hs, rfl⟩⟩,
    wasToBlame_resume hs₁ hs hfailed, hs', hids, hr, hnames⟩

/-- The leader of a group exceeds its time limit, and the next group is made without it. -/
theorem exclusion_blames_leader :
    ∃ s s' : State, ∃ r,
      runSteps (sampleConfig 3) {} (reportSample "a" ++ [.resume "w" 1]) = some s ∧
      WasToBlame (sampleConfig 3) (reportSample "a" ++ [.resume "w" 1]) "w" "a" ∧
      step (sampleConfig 3) s (.place "w" sampleRanking 1 "retry") = some s' ∧
      s'.attempts.getAttempt "w#2" = some r ∧ r.names "a" = false := by
  obtain ⟨s, s', r, hrun, hblame, hs', hids, hr, -⟩ := report_retried (.inl rfl)
  have halong : Along (step (sampleConfig 3)) (BlamesLeader "w") {}
      (reportSample "a" ++ [.resume "w" 1]) := by decide +kernel
  obtain ⟨r', hr', hnames⟩ := (exclusion_blames halong hrun).selected _ s' "w#2" hs' hids
  obtain rfl := Option.some.inj (hr.symm.trans hr')
  exact ⟨s, s', r, hrun, hblame, hs', hr, hnames "a" hblame⟩

/-- The other member of a group exceeds its time limit and is selected again: the leader is excluded
in its place. -/
theorem member_selected_again :
    ¬ ∀ (cfg : Config) (as : List Action) (s : State) (w : String),
      runSteps cfg {} as = some s → ExclusionBlames cfg as s w := by
  intro hclaim
  obtain ⟨s, s', r, hrun, hblame, hs', hids, hr, hagain⟩ := report_retried (.inr rfl)
  obtain ⟨r', hr', hnames⟩ := (hclaim _ _ s "w" hrun).selected _ s' "w#2" hs' hids
  obtain rfl := Option.some.inj (hr.symm.trans hr')
  rw [hnames "b" hblame] at hagain
  cases hagain

end Aidars.Orchestrator
