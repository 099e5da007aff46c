import Aidars.Orchestrator.Workers
import Aidars.Registry.Filing

/-!
# Workers that have not proved to be alive

A restart registers the workers that it reads back as offline. Until such a worker sends a heartbeat
or registers, whatever else happens (`Issued`), it stays offline, and no attempt is placed on it:
`unverified_not_eligible`. The penalties of a worker are no way around: a failure is recorded of
workers of a dispatch only, and the decay promotes degraded records only.
-/

namespace Aidars

namespace WorkerRegistry

variable {cfg : RegistryConfig} {r r' : WorkerRegistry} {x wid : String}

/-! ## Unverified workers -/

/-- The worker is offline or not registered, and its health record is not one that a decay
promotes. -/
structure Unverified (x : String) (r : WorkerRegistry) : Prop where
  keyed : Keyed r
  offline : ∀ st, r.statusOf x = some st → st = .offline
  health : ∀ h, r.healthRecords.get? x = some h → h.healthStatus = .healthy ∨ h.healthStatus = .dead

/-- What changes neither the status nor the health record of the worker. -/
theorem Unverified.congr (h : Unverified x r) (hkeyed : Keyed r')
    (hstatus : r'.statusOf x = r.statusOf x)
    (hhealth : r'.healthRecords.get? x = r.healthRecords.get? x) : Unverified x r' := by
  refine ⟨hkeyed, fun st hst => ?_, fun rec hrec => ?_⟩
  · rw [hstatus] at hst
    exact h.offline st hst
  · rw [hhealth] at hrec
    exact h.health rec hrec

theorem unverified_empty : Unverified x {} :=
  ⟨keyed_empty, fun st h => (by cases h), fun record h => (by cases h)⟩

theorem Unverified.restored (h : Unverified x r) {info copy : WorkerInfo} {now : ℚ}
    (hr : r.registerWorker info now = .ok (r', copy)) (hoffline : info.status = .offline) :
    Unverified x r' := by
  obtain ⟨wid, -, -, hst, hworkers, hhealth⟩ := workers_registerWorker hr
  refine ⟨h.keyed.registerWorker hr, fun st hst' => ?_, fun rec hrec => ?_⟩
  · unfold statusOf at hst'
    rw [hworkers, Dict.get?_set] at hst'
    split_ifs at hst' with hx
    · obtain rfl := Option.some.inj hst'
      exact hst.trans hoffline
    · exact h.offline st hst'
  · rw [hhealth] at hrec
    unfold registerHealth at hrec
    split at hrec
    · rw [Dict.get?_set] at hrec
      split_ifs at hrec
      · obtain rfl := Option.some.inj hrec
        exact .inl rfl
      · exact h.health rec hrec
    · split_ifs at hrec
      · rw [Dict.get?_set] at hrec
        split_ifs at hrec
        · obtain rfl := Option.some.inj hrec
          exact .inl rfl
        · exact h.health rec hrec
      · exact h.health rec hrec

theorem Unverified.registerWorker (h : Unverified x r) {info copy : WorkerInfo} {now : ℚ}
    (hne : validateWorkerId info.workerId ≠ .ok x)
    (hr : r.registerWorker info now = .ok (r', copy)) : Unverified x r' := by
  obtain ⟨wid, hwid, -, -, hworkers, hhealth⟩ := workers_registerWorker hr
  have hx : x ≠ wid := fun he => hne (he ▸ hwid)
  refine h.congr (h.keyed.registerWorker hr) ?_ ?_
  · unfold statusOf
    rw [hworkers, Dict.get?_set, if_neg hx]
  · rw [hhealth]
    unfold registerHealth
    split
    · rw [Dict.get?_set, if_neg hx]
    · split_ifs
      · rw [Dict.get?_set, if_neg hx]
      · rfl

theorem Unverified.unregisterWorker (h : Unverified x r) (wid : String) :
    Unverified x (r.unregisterWorker wid).1 := by
  have hworkers := workers_unregisterWorker r wid
  refine ⟨h.keyed.of_inherits (.of_erased hworkers), fun st hst => ?_, fun rec hrec => ?_⟩
  · unfold statusOf at hst
    rw [hworkers] at hst
    split_ifs at hst
    · cases hst
    · exact h.offline st hst
  · unfold WorkerRegistry.unregisterWorker at hrec
    split at hrec
    · exact h.health rec hrec
    · dsimp only [removeWorkerFromIndex] at hrec
      rw [Dict.get?_modify] at hrec
      split_ifs at hrec with he
      · obtain ⟨old, -, rfl⟩ := Option.map_eq_some_iff.1 hrec
        exact .inr rfl
      · exact h.health rec hrec

theorem Unverified.evictExpiredWorkers (h : Unverified x r) (timeoutSeconds : Option ℚ) (now : ℚ) :
    Unverified x (evictExpiredWorkers cfg r timeoutSeconds now).1 := by
  have hfold : ∀ (ids : List String) (acc : WorkerRegistry × List String), Unverified x acc.1 →
      Unverified x (ids.foldl evictOne acc).1 := by
    intro ids
    induction ids with
    | nil => exact fun _ h => h
    | cons id ids ih =>
      intro acc h
      refine ih _ ?_
      have hone := h.unregisterWorker id
      unfold evictOne
      split <;> rename_i heq <;> rw [heq] at hone <;> exact hone
  exact hfold _ _ h

theorem Unverified.recordHeartbeat (h : Unverified x r) (hne : wid ≠ x)
    (payload : Option HeartbeatPayload) (now : ℚ) :
    Unverified x (r.recordHeartbeat wid payload now).1 := by
  have hr := rewrites_recordHeartbeat r wid payload now
  refine h.congr (h.keyed.of_rewrites hr) ?_ ?_
  · obtain ⟨f, -, hworkers⟩ := hr
    unfold statusOf
    rw [hworkers, if_neg hne.symm]
  · unfold WorkerRegistry.recordHeartbeat
    split
    · rfl
    · cases payload with
      | none =>
        dsimp only
        rw [Dict.get?_modify, if_neg hne.symm]
      | some p =>
        dsimp only
        rw [Dict.get?_modify, if_neg hne.symm, applyPayload_health]

theorem Unverified.recordFailure (h : Unverified x r) (hne : wid ≠ x) (penalty now : ℚ) :
    Unverified x (recordFailure cfg r wid penalty now) := by
  obtain ⟨hstatus, hhealth⟩ := updateHealth_of_ne (r := r) hne.symm
  exact h.congr (h.keyed.of_rewrites (rewrites_recordFailure r wid penalty now)) hstatus hhealth

theorem Unverified.decayOne (h : Unverified x r) (now : ℚ) (wid : String) :
    Unverified x (decayOne cfg now r wid) := by
  have hkeyed : Keyed (WorkerRegistry.decayOne cfg now r wid) :=
    h.keyed.of_rewrites (rewrites_decayOne r wid now)
  by_cases hx : x = wid
  · subst hx
    cases hrec : r.healthRecords.get? x with
    | none =>
      rw [WorkerRegistry.decayOne, updateHealth_of_none hrec]
      exact h
    | some rec =>
      -- a healthy or dead record is not promoted
      have hlevel := h.health rec hrec
      have hrecovers : decayRecovers cfg now rec = false := by
        rcases hlevel with hl | hl <;> simp [decayRecovers, hl]
      have himproves : decayImproves cfg now rec = false := by
        rcases hlevel with hl | hl <;> simp [decayImproves, hl]
      have hkept : ∀ info, (decayWorker cfg now rec info).status = id info.status := by
        intro info
        unfold decayWorker
        by_cases hle : now - rec.lastDecayUtc ≤ 0
        · rw [if_pos hle, id]
        · rw [if_neg hle]
          simp [hrecovers, himproves]
      refine ⟨hkeyed, fun st hst => ?_, fun rec' hrec' => ?_⟩
      · rw [WorkerRegistry.decayOne, statusOf_updateHealth hrec hkept, if_pos rfl,
          Option.map_id] at hst
        exact h.offline st hst
      · rw [WorkerRegistry.decayOne, health_updateHealth hrec, if_pos rfl] at hrec'
        obtain rfl := Option.some.inj hrec'
        unfold decayRecord
        split_ifs with hle h₁ h₂
        · exact hlevel
        · rw [hrecovers] at h₁
          cases h₁
        · rw [himproves] at h₂
          cases h₂
        · exact hlevel
  · obtain ⟨hstatus, hhealth⟩ := updateHealth_of_ne (r := r) hx
    exact h.congr hkeyed hstatus hhealth

theorem Unverified.decayPenalties (h : Unverified x r) (now : ℚ) :
    Unverified x (decayPenalties cfg r now) := by
  have hfold : ∀ (l : List String) (r : WorkerRegistry), Unverified x r →
      Unverified x (l.foldl (WorkerRegistry.decayOne cfg now) r) := by
    intro l
    induction l with
    | nil => exact fun _ h => h
    | cons wid l ih => exact fun r h => ih _ (h.decayOne now wid)
  exact hfold _ r h

theorem Unverified.addWorkerHashes (h : Unverified x r) (wid : String) (hashes : List String) :
    Unverified x (r.addWorkerHashes wid hashes).1 :=
  h.congr (h.keyed.of_rewrites (rewrites_addWorkerHashes r wid hashes))
    (addWorkerHashes_statusOf r wid hashes) (by rw [addWorkerHashes_health])

theorem Unverified.removeWorkerHashes (h : Unverified x r) (wid : String) (hashes : List String) :
    Unverified x (r.removeWorkerHashes wid hashes).1 :=
  h.congr (h.keyed.of_rewrites (rewrites_removeWorkerHashes r wid hashes))
    (removeWorkerHashes_statusOf r wid hashes) (by rw [removeWorkerHashes_health])

theorem Unverified.syncWorkerInventory (h : Unverified x r) (wid : String)
    (inventory : List String) : Unverified x (r.syncWorkerInventory wid inventory).1 := by
  unfold WorkerRegistry.syncWorkerInventory
  split
  · exact h
  · exact (h.addWorkerHashes wid _).removeWorkerHashes wid _

theorem Unverified.setWorkerStatus (h : Unverified x r) {status : WorkerStatus} (hne : wid ≠ x) :
    Unverified x (r.setWorkerStatus wid status) := by
  have hr : Rewrites wid r (r.setWorkerStatus wid status) :=
    .of_modify (f := fun w => { w with status }) rfl fun _ => rfl
  refine h.congr (h.keyed.of_rewrites hr) ?_ rfl
  unfold statusOf WorkerRegistry.setWorkerStatus
  dsimp only
  rw [Dict.get?_modify, if_neg hne.symm]

end WorkerRegistry

namespace Orchestrator

open WorkerRegistry (Unverified)
open AttemptRegistry (Marked)

variable {cfg : Config} {s s' : State} {w x : String} {a : Action} {f : Frame} {d : Dispatch}
  {reg reg' : AttemptRegistry}

/-! ## Steps before a worker proves to be alive -/

/-- The coordinator takes the step, and the worker neither registers nor sends a heartbeat by it.
Statuses are set by the health loop alone, failures are recorded by runs alone, and nothing records
a success or a corruption or clears the registry. -/
def Issued (x : String) (s : State) : Action → Prop
  | .registryOp (.registerWorker info _) => validateWorkerId info.workerId ≠ .ok x
  | .registryOp (.recordHeartbeat wid _ _) => wid ≠ x
  | .registryOp (.setWorkerStatus wid status) =>
    (s.registry.statusOf wid = some .active ∧ status = .draining) ∨
      (s.registry.statusOf wid = some .draining ∧ status = .active)
  | .registryOp (.recordSuccess ..) => False
  | .registryOp (.recordFailure ..) => False
  | .registryOp (.recordCorruption ..) => False
  | .registryOp .clear => False
  | _ => True

/-- The worker is unverified, and no dispatch may be blamed on it. -/
structure UnverifiedInv (x : String) (s : State) : Prop where
  dispatches : DispatchInv s
  worker : Unverified x s.registry
  spared : ∀ w f d, AtAttempt s w f d → ¬ Blamed s d x

theorem unverified_restoreWorkers (r : WorkerRegistry) (now : ℚ) :
    Unverified x (State.restoreWorkers cfg r now) := by
  have hfold : ∀ (l : List WorkerInfo) (r : WorkerRegistry), Unverified x r →
      Unverified x (l.foldl (fun acc info => acc.apply cfg.registry (.registerWorker
        { info with status := .offline, lastHeartbeatUtc := now } now)) r) := by
    intro l
    induction l with
    | nil => exact fun _ h => h
    | cons info l ih =>
      intro r h
      refine ih _ ?_
      unfold WorkerRegistry.apply
      dsimp only
      split
      · rename_i r' copy hr
        exact h.restored hr rfl
      · exact h
  exact hfold _ _ WorkerRegistry.unverified_empty

theorem unverified_apply {op : WorkerRegistry.Op} (h : Unverified x s.registry)
    (hop : Issued x s (.registryOp op)) : Unverified x (s.registry.apply cfg.registry op) := by
  cases op with
  | registerWorker info now =>
    unfold WorkerRegistry.apply
    dsimp only
    split
    · rename_i r' copy hr
      exact h.registerWorker hop hr
    · exact h
  | unregisterWorker wid => exact h.unregisterWorker wid
  | addWorkerHashes wid hashes => exact h.addWorkerHashes wid hashes
  | removeWorkerHashes wid hashes => exact h.removeWorkerHashes wid hashes
  | syncWorkerInventory wid inventory => exact h.syncWorkerInventory wid inventory
  | recordHeartbeat wid payload now => exact h.recordHeartbeat hop payload now
  | evictExpiredWorkers timeoutSeconds now => exact h.evictExpiredWorkers timeoutSeconds now
  | decayPenalties now => exact h.decayPenalties now
  | setWorkerStatus wid status =>
    -- an offline worker is neither drained nor revived
    have hne : wid ≠ x := by
      rintro rfl
      rcases hop with ⟨hst, -⟩ | ⟨hst, -⟩ <;> exact absurd (h.offline _ hst) (by decide)
    exact h.setWorkerStatus hne
  | recordSuccess wid bytes now => exact hop.elim
  | recordFailure wid penalty now => exact hop.elim
  | recordCorruption wid hash penalty now => exact hop.elim
  | clear => exact hop.elim

theorem unverified_step (hs : UnverifiedInv x s) (ha : Issued x s a)
    (h : step cfg s a = some s') : Unverified x s'.registry := by
  have hworker := hs.worker
  cases step_registryStep hs.dispatches h with
  | reported w f d hat hreg =>
    have hspared := hs.spared w f d hat
    generalize s'.registry = r' at hreg
    cases hreg with
    | same => exact hworker
    | outputs wid hashes => exact hworker.addWorkerHashes wid hashes
    | failures ids now hids =>
      have hne : ∀ y ∈ ids, y ≠ x := fun y hy he => hspared (he ▸ hids y hy)
      clear hids
      generalize s.registry = r at hworker ⊢
      induction ids generalizing r with
      | nil => exact hworker
      | cons y ids ih =>
        refine ih (fun z hz => hne z (List.mem_cons_of_mem y hz)) _ ?_
        exact hworker.recordFailure (hne y List.mem_cons_self) 1 now
  | evicted now ha hreg =>
    rw [hreg]
    exact hworker.evictExpiredWorkers none now
  | called op hop hreg =>
    rw [hreg]
    exact unverified_apply hworker (hop ▸ ha)
  | restarted now ha hreg =>
    rw [hreg]
    exact unverified_restoreWorkers s.registry now
  | same hreg =>
    rw [hreg]
    exact hworker

/-! ## Placement passes the worker over -/

theorem not_eligible_of_status {p : WorkerResourceProfile} {text : TextFunctions}
    {ctx : PlacementContext} {spec : WorkloadSpec} (hp : p.status ≠ .active) :
    Placement.eligible text ctx spec p = false := by
  refine Bool.eq_false_iff.2 fun he => hp ?_
  have hmem : (decide (p.status = .active), "WORKER_NOT_ACTIVE") ∈
      Placement.gates text ctx spec p := by
    simp only [Placement.gates, List.mem_cons, true_or, or_true]
  exact of_decide_eq_true (Placement.gate_of_eligible he hmem)

/-- The profile of an unverified worker is not eligible. -/
theorem not_eligible_of_unverified (h : Unverified x s.registry) {info : WorkerInfo}
    (hinfo : s.registry.workers.get? x = some info) {p : WorkerResourceProfile}
    (hp : Placement.workerProfile reg info = some p) {text : TextFunctions}
    {ctx : PlacementContext} {spec : WorkloadSpec} :
    Placement.eligible text ctx spec p = false := by
  refine not_eligible_of_status ?_
  obtain ⟨telemetry, -, rfl⟩ := Option.map_eq_some_iff.1 hp
  have hst : s.registry.statusOf x = some info.status := by
    rw [WorkerRegistry.statusOf, hinfo, Option.map_some]
  dsimp only
  rw [h.offline _ hst]
  decide

theorem choose_ne (hx : validateWorkerId x = .ok x) (h : Unverified x s.registry)
    {ranking : Ranking} {now : ℚ} {ds : List PlacementDecision}
    (hchoose : s.choose cfg w f ranking now = some ds) : ∀ p ∈ ds, p.selectedWorkerId ≠ x := by
  intro p hp he
  obtain ⟨profile, hprofile, hid, ctx, -, helig⟩ := choose_eligible hchoose p hp
  obtain ⟨info, hinfo, hbuild⟩ := List.mem_filterMap.1 hprofile
  have hlisted := List.mem_of_mem_filter hinfo
  unfold WorkerRegistry.listWorkers at hlisted
  obtain ⟨⟨k, info'⟩, hentry, rfl⟩ := List.mem_map.1 hlisted
  have hk := Dict.mem_entries.1 (List.mem_of_mem_filter hentry)
  -- the worker is filed under its own identifier
  have hprofileId : profile.workerId = info'.workerId := by
    obtain ⟨telemetry, -, rfl⟩ := Option.map_eq_some_iff.1 hbuild
    rfl
  have hkey := h.keyed k info' hk
  rw [← hprofileId, hid, he, hx] at hkey
  obtain rfl := Except.ok.inj hkey
  rw [not_eligible_of_unverified h hk hbuild] at helig
  cases helig

theorem selectedIds_newGroup {execId : String} {p : PlacementDecision}
    {rest : List PlacementDecision}
    (hx : x ∈ selectedIds p (State.newGroup f execId (p :: rest))) :
    ∃ q ∈ p :: rest, q.selectedWorkerId = x := by
  unfold selectedIds State.newGroup at hx
  split_ifs at hx
  · exact List.mem_map.1 hx
  · exact ⟨p, List.mem_cons_self, (List.mem_singleton.1 hx).symm⟩

/-! ## Groups that do not record the worker -/

theorem unavailable_write {m : Mark} {r : AttemptRecord}
    (h : ∀ g ∈ r.executionGroup, x ∉ g.unavailableWorkerIds)
    (hm : ∀ why ids, m = .lost why ids → x ∉ ids) :
    ∀ g ∈ (m.write r).executionGroup, x ∉ g.unavailableWorkerIds := by
  intro g hg hx
  cases m with
  | succeeded result =>
    obtain ⟨g₀, hg₀, rfl⟩ := Option.map_eq_some_iff.1 hg
    exact h g₀ hg₀ hx
  | failed category reason result =>
    obtain ⟨g₀, hg₀, rfl⟩ := Option.map_eq_some_iff.1 hg
    exact h g₀ hg₀ hx
  | lost reason ids =>
    obtain ⟨g₀, hg₀, rfl⟩ := Option.map_eq_some_iff.1 hg
    rcases PySet.mem_foldl_insert.1 hx with hx | hx
    · exact h g₀ hg₀ hx
    · exact hm reason ids rfl hx

/-- The attempt does not record the worker unavailable. -/
def Unrecorded (reg : AttemptRegistry) (id x : String) : Prop :=
  ∀ r, reg.getAttempt id = some r → ∀ g ∈ r.executionGroup, x ∉ g.unavailableWorkerIds

theorem unrecorded_iff {id : String} :
    Unrecorded s.attempts id x ↔ ¬ s.RecordsUnavailable id x := by
  constructor
  · rintro h ⟨r, g, hr, hg, hx⟩
    exact h r hr g hg hx
  · intro h r hr g hg hx
    exact h ⟨r, g, hr, hg, hx⟩

/-- The worker of an attempt that names it belongs to the dispatch. -/
theorem DispatchOk.mem_of_names (h : DispatchOk reg w d) {r : AttemptRecord}
    (hr : reg.getAttempt d.attemptId = some r) (hx : r.names x = true) : x ∈ d.workerIds := by
  obtain ⟨r₁, hr₁, hworker, hgroup⟩ := h.recorded
  obtain rfl := Option.some.inj (hr.symm.trans hr₁)
  unfold AttemptRecord.names at hx
  rw [hworker, Bool.or_eq_true] at hx
  rcases hx with hx | hx
  · rw [← Option.some.inj (of_decide_eq_true hx)]
    exact h.selected
  · cases hg : r.executionGroup with
    | none =>
      rw [hg] at hx
      cases hx
    | some g =>
      rw [hg, Option.any_some] at hx
      rw [hg] at hgroup
      obtain ⟨g₁, hg₁, hids⟩ := Option.map_eq_some_iff.1 hgroup.symm
      unfold Dispatch.workerIds selectedIds
      rw [hg₁]
      dsimp only
      rw [hids]
      exact List.contains_iff_mem.1 hx

theorem unrecorded_marked {P : AttemptRegistry → String → Mark → Prop}
    (hm : Marked P reg reg') (hfiled : FiledIds reg) (hd : DispatchOk reg w d)
    (h : Unrecorded reg d.attemptId x)
    (hP : ∀ reg id m, id = d.attemptId → FiledIds reg → DispatchOk reg w d → P reg id m →
      ∀ why ids, m = .lost why ids → x ∉ ids) : Unrecorded reg' d.attemptId x := by
  have hkept := hm.invariant (K := fun reg => FiledIds reg ∧ DispatchOk reg w d ∧
    Unrecorded reg d.attemptId x) (fun reg id m ⟨hf, hok, hu⟩ hp => ?_) ⟨hfiled, hd, h⟩
  · exact hkept.2.2
  · refine ⟨hf.of_marked (.single hp), hok.of_marked (.single hp), fun r hr => ?_⟩
    rw [AttemptRegistry.getAttempt_mark] at hr
    split_ifs at hr with hid
    · obtain ⟨r₀, hr₀, rfl⟩ := Option.map_eq_some_iff.1 hr
      rw [← hid] at hr₀
      exact unavailable_write (hu r₀ hr₀) (hP reg id m hid.symm hf hok hp)
    · exact hu r hr

/-- A dispatch that goes on does not record the worker. -/
theorem unrecorded_step (hs : UnverifiedInv x s) (h : step cfg s a = some s')
    (hat : AtAttempt s w f d) (hplace : ∀ ranking now execId, a ≠ .place w ranking now execId)
    (hrestart : a.isRestart = false) : Unrecorded s'.attempts d.attemptId x := by
  have hok := hs.dispatches.own w f d hat
  have hold : Unrecorded s.attempts d.attemptId x :=
    unrecorded_iff.2 fun hr => hs.spared w f d hat (.inr hr)
  cases step_attemptStep hs.dispatches h with
  | placed v ranking now execId f₀ p rest ha hpc hchoose hrec =>
    have hne : w ≠ v := fun he => hplace ranking now execId (he ▸ ha)
    obtain ⟨r, -, hget⟩ := getAttempt_recorded hrec
    rw [attempts_promoteSpare] at hget
    intro r' hr'
    rw [hget, if_neg (hok.ne_nextId hne)] at hr'
    exact hold r' hr'
  | restarted ha => rw [hrestart] at ha; cases ha
  | answered v f₀ d₀ reply ha hat₀ hreports hmarked =>
    have hspared := hs.spared v f₀ d₀ hat₀
    refine unrecorded_marked hmarked hs.dispatches.filed hok hold fun reg id m _ _ _ hcause => ?_
    intro why ids hm hx
    cases hcause with
    | succeeded => cases hm
    | failed => cases hm
    | superseded => cases hm
    | lost m' ids' hids =>
      cases hm
      rcases hids x hx with hx | hx | hx
      · exact hspared (.inl hx)
      · exact hspared (.inl (hreports x hx))
      · exact hspared (.inr hx)
  | evicted ha hmarked =>
    have hspared := hs.spared w f d hat
    refine unrecorded_marked hmarked hs.dispatches.filed hok hold
      fun reg id m hid hfiled hd hev => ?_
    rintro why ids rfl hx
    obtain ⟨y, why', he, hnames⟩ := hev
    obtain ⟨-, rfl⟩ := Mark.lost.inj he
    obtain rfl := List.mem_singleton.1 hx
    -- the attempt that the mark is written to names the worker
    obtain ⟨r, hr, -⟩ := hd.recorded
    rw [hid] at hnames
    exact hspared (.inl (hd.mem_of_names hr (hnames hfiled r hr)))
  | same hattempts =>
    rw [hattempts]
    exact hold

theorem keyed_step (hs : DispatchInv s) (hk : WorkerRegistry.Keyed s.registry)
    (h : step cfg s a = some s') : WorkerRegistry.Keyed s'.registry := by
  cases step_registryStep hs h with
  | reported w f d hat hreg =>
    generalize s'.registry = r' at hreg
    cases hreg with
    | same => exact hk
    | outputs wid hashes =>
      exact hk.of_rewrites (WorkerRegistry.rewrites_addWorkerHashes _ wid hashes)
    | failures ids now hids =>
      clear hids
      generalize s.registry = r at hk ⊢
      induction ids generalizing r with
      | nil => exact hk
      | cons y ids ih =>
        exact ih _ (hk.of_rewrites (WorkerRegistry.rewrites_recordFailure _ y 1 now))
  | evicted now ha hreg =>
    rw [hreg]
    exact hk.apply (.evictExpiredWorkers none now)
  | called op hop hreg =>
    rw [hreg]
    exact hk.apply op
  | restarted now ha hreg =>
    rw [hreg]
    exact (unverified_restoreWorkers (x := "") s.registry now).keyed
  | same hreg =>
    rw [hreg]
    exact hk

theorem unverifiedInv_step (hx : validateWorkerId x = .ok x) (hs : UnverifiedInv x s)
    (ha : Issued x s a) (h : step cfg s a = some s') : UnverifiedInv x s' := by
  refine ⟨dispatchInv_step hs.dispatches h, unverified_step hs ha h, fun w f d hat => ?_⟩
  rcases step_heldStep hs.dispatches h hat with ⟨f₀, d₀, hat₀, hid, hworkers⟩ |
    ⟨ranking, now, execId, f₀, p, rest, ha', hpc, hchoose, hmade, hid, hattempts⟩
  · have hspared := hs.spared w f₀ d₀ hat₀
    have hrestart : a.isRestart = false := by
      cases a with
      | restart now =>
        obtain rfl := Option.some.inj h
        exact absurd hat (not_atAttempt_of_returned (.inl rfl))
      | _ => rfl
    have hplace : ∀ ranking now execId, a ≠ .place w ranking now execId := by
      rintro ranking now execId rfl
      obtain ⟨f₁, hpc, -⟩ := place_spec h
      rcases hat₀ with hat₀ | ⟨r, t, hat₀⟩ <;> rw [hat₀] at hpc <;> cases hpc
    have hun := unrecorded_step hs h hat₀ hplace hrestart
    rintro (hmem | hrec)
    · exact hspared (.inl (hworkers ▸ hmem))
    · rw [hid] at hrec
      exact unrecorded_iff.1 hun hrec
  · have hreg : (s.promoteSpare f₀).1.registry = s.registry := (promoteSpare_frame s f₀).2.1
    have hne := choose_ne hx (hreg ▸ hs.worker) hchoose
    rintro (hmem | ⟨r, g, hr, hg, hmem⟩)
    · have hids : d.workerIds = selectedIds p
          (State.newGroup (s.promoteSpare f₀).2 execId (p :: rest)) := by
        rw [Dispatch.workerIds, hmade.executionGroup, Option.some.inj hmade.decision]
      rw [hids] at hmem
      obtain ⟨q, hq, hqx⟩ := selectedIds_newGroup hmem
      exact hne q hq hqx
    · -- the group of a new attempt has lost nobody
      rw [hattempts, hid, AttemptRegistry.markRunning, AttemptRegistry.getAttempt_update,
        if_pos rfl, getAttempt_assignNew, if_pos rfl] at hr
      obtain rfl := Option.some.inj hr
      obtain ⟨g₀, hg₀, rfl⟩ := Option.map_eq_some_iff.1 hg
      have hg₀ : State.newGroup (s.promoteSpare f₀).2 execId (p :: rest) = some g₀ := hg₀
      unfold State.newGroup at hg₀
      split_ifs at hg₀
      obtain rfl := Option.some.inj hg₀
      exact PySet.notMem_empty x hmem

/-- **No attempt is placed on a worker before it proves to be alive.** -/
theorem unverified_not_eligible {bs : List Action} (hs : UnverifiedInv x s)
    (hbs : Along (step cfg) (Issued x) s bs) (h : runSteps cfg s bs = some s') {info : WorkerInfo}
    (hinfo : s'.registry.workers.get? x = some info) {p : WorkerResourceProfile}
    (hp : Placement.workerProfile s'.attempts info = some p) (ctx : PlacementContext)
    (spec : WorkloadSpec) : Placement.eligible cfg.text ctx spec p = false := by
  by_cases hx : validateWorkerId x = .ok x
  · have hinv : UnverifiedInv x s' :=
      hbs.invariant (fun _ _ _ hi ha hstep => unverifiedInv_step hx hi ha hstep) hs h
    exact not_eligible_of_unverified hinv.worker hinfo hp
  · -- an identifier that is not stripped is not registered
    let Inv := fun s : State => DispatchInv s ∧ WorkerRegistry.Keyed s.registry
    have hstep : ∀ s a s', Inv s → step cfg s a = some s' → Inv s' :=
      fun s a s' hi hstep => ⟨dispatchInv_step hi.1 hstep, keyed_step hi.1 hi.2 hstep⟩
    have hinv : Inv s' := runFrom_invariant hstep ⟨hs.dispatches, hs.worker.keyed⟩ h
    exact absurd (validateWorkerId_idem (hinv.2 x info hinfo)) hx

end Orchestrator

end Aidars
