import Aidars.Registry.Basic
import Mathlib.Data.List.Infix

/-!
# Persisted workers

The registry writes the record of a worker through to the state store after each call that changes
it, and deletes the row of a worker that it drops. A row is stored under the identifier in the
record, and the registry keeps the record under the stripped identifier (`validateWorkerId`).
A restart registers the rows that can be read again.

The rows mirror the registry (`Mirrors`) as long as identifiers are registered as they are stripped,
no worker without a row is registered with a heartbeat at NaN, and rows can be read:
`persisted_workers_mirror_iff`.
-/

namespace Aidars

/-- The worker registry with its table in the state store. -/
structure PersistedRegistry where
  registry : WorkerRegistry := {}
  rows : Dict String WorkerInfo := ∅

namespace StateStore

/-- Insert or update the row of a worker. The time of a heartbeat must be there, and NaN is stored
as none: the row is refused, with an error. -/
def saveWorker (rows : Dict String WorkerInfo) (info : WorkerInfo) : Dict String WorkerInfo :=
  if info.lastHeartbeatUtc = .nan then rows else rows.set info.workerId info

theorem get?_saveWorker (rows : Dict String WorkerInfo) (info : WorkerInfo) (k : String) :
    (saveWorker rows info).get? k =
      if k = info.workerId ∧ info.lastHeartbeatUtc ≠ .nan then some info else rows.get? k := by
  unfold saveWorker
  split_ifs with hnan h h <;> simp_all

/-- Remove the row of a worker, if there is one. -/
def deleteWorker (rows : Dict String WorkerInfo) (workerId : String) : Dict String WorkerInfo :=
  rows.erase workerId

/-- The workers whose rows can be read. -/
def loadWorkers (readable : WorkerInfo → Bool) (rows : Dict String WorkerInfo) : List WorkerInfo :=
  rows.values.filter readable

end StateStore

namespace PersistedRegistry

/-! ## The calls -/

/-- Write a snapshot of a worker, if there is one. -/
def persistWorker (rows : Dict String WorkerInfo) (snapshot : Option WorkerInfo) :
    Dict String WorkerInfo :=
  match snapshot with
  | some info => StateStore.saveWorker rows info
  | none => rows

/-- Register a worker and write its record. -/
def registerWorker (c : PersistedRegistry) (info : WorkerInfo) (now : ℚ) : PersistedRegistry :=
  match c.registry.registerWorker info now with
  | .ok (registry, snapshot) => { registry, rows := StateStore.saveWorker c.rows snapshot }
  | .error _ => c

/-- Unregister a worker and delete its row. -/
def unregisterWorker (c : PersistedRegistry) (workerId : String) : PersistedRegistry :=
  let (registry, result) := c.registry.unregisterWorker workerId
  { registry, rows := if result.isSome then StateStore.deleteWorker c.rows workerId else c.rows }

/-- Record a heartbeat and write the record of the worker. -/
def recordHeartbeat (c : PersistedRegistry) (workerId : String) (payload : Option HeartbeatPayload)
    (now : ℚ) : PersistedRegistry :=
  let (registry, known) := c.registry.recordHeartbeat workerId payload now
  if known then { registry, rows := persistWorker c.rows (registry.workers.get? workerId) } else c

/-- Update the status of a worker, and write the record when the status is new. -/
def setWorkerStatus (c : PersistedRegistry) (workerId : String) (status : WorkerStatus) :
    PersistedRegistry :=
  match c.registry.workers.get? workerId with
  | none => c
  | some worker =>
    if worker.status = status then c
    else
      { registry := c.registry.setWorkerStatus workerId status
        rows := StateStore.saveWorker c.rows { worker with status } }

/-- Unregister the workers whose heartbeat has expired, and delete their rows. -/
def evictExpiredWorkers (cfg : RegistryConfig) (c : PersistedRegistry) (timeoutSeconds : Option ℚ)
    (now : ℚ) : PersistedRegistry :=
  let (registry, evicted) := WorkerRegistry.evictExpiredWorkers cfg c.registry timeoutSeconds now
  { registry, rows := evicted.foldl StateStore.deleteWorker c.rows }

/-- A worker that was read at a restart is offline until it proves to be alive. -/
def unverified (info : WorkerInfo) (now : ℚ) : WorkerInfo :=
  { info with status := .offline, lastHeartbeatUtc := now }

/-- Register the workers that are read at a restart. -/
def restoreWorkers (c : PersistedRegistry) (infos : List WorkerInfo) (now : ℚ) :
    PersistedRegistry :=
  infos.foldl (fun c info => c.registerWorker (unverified info now) now) c

/-- Restart the coordinator: the registry is new, and the rows stay. -/
def restart (readable : WorkerInfo → Bool) (c : PersistedRegistry) (now : ℚ) : PersistedRegistry :=
  restoreWorkers { rows := c.rows } (StateStore.loadWorkers readable c.rows) now

/-- The calls of a coordinator, with the clock reading of each. -/
inductive Op
  | registerWorker (info : WorkerInfo) (now : ℚ)
  | unregisterWorker (workerId : String)
  | recordHeartbeat (workerId : String) (payload : Option HeartbeatPayload) (now : ℚ)
  | setWorkerStatus (workerId : String) (status : WorkerStatus)
  | evictExpiredWorkers (timeoutSeconds : Option ℚ) (now : ℚ)
  | restart (now : ℚ)

variable (cfg : RegistryConfig) (readable : WorkerInfo → Bool)

/-- The effect of a call. -/
def apply (c : PersistedRegistry) : Op → PersistedRegistry
  | .registerWorker info now => c.registerWorker info now
  | .unregisterWorker workerId => c.unregisterWorker workerId
  | .recordHeartbeat workerId payload now => c.recordHeartbeat workerId payload now
  | .setWorkerStatus workerId status => c.setWorkerStatus workerId status
  | .evictExpiredWorkers timeoutSeconds now => c.evictExpiredWorkers cfg timeoutSeconds now
  | .restart now => c.restart readable now

/-- The registry and its rows after a sequence of calls. -/
def run (ops : List Op) : PersistedRegistry := ops.foldl (apply cfg readable) {}

end PersistedRegistry

/-! ## What the calls do to the records -/

namespace WorkerRegistry

variable {r r' r'' : WorkerRegistry} {wid k : String}

/-- At most the record of one worker is rewritten, and it keeps its identifier. -/
def Rewrites (wid : String) (r r' : WorkerRegistry) : Prop :=
  ∃ f : WorkerInfo → WorkerInfo, (∀ info, (f info).workerId = info.workerId) ∧
    ∀ k, r'.workers.get? k = if k = wid then (r.workers.get? wid).map f else r.workers.get? k

namespace Rewrites

theorem refl (wid : String) (r : WorkerRegistry) : Rewrites wid r r := by
  refine ⟨id, fun _ => rfl, fun k => ?_⟩
  split_ifs with h
  · rw [h, Option.map_id, id]
  · rfl

theorem of_modify {f : WorkerInfo → WorkerInfo} (h : r'.workers = r.workers.modify wid f)
    (hf : ∀ info, (f info).workerId = info.workerId) : Rewrites wid r r' :=
  ⟨f, hf, fun k => by rw [h, Dict.get?_modify]⟩

theorem trans (h : Rewrites wid r r') (h' : Rewrites wid r' r'') : Rewrites wid r r'' := by
  obtain ⟨f, hf, hr⟩ := h
  obtain ⟨g, hg, hr'⟩ := h'
  refine ⟨g ∘ f, fun info => (hg (f info)).trans (hf info), fun k => ?_⟩
  rw [hr', hr wid, if_pos rfl, Option.map_map]
  split_ifs with hk
  · rfl
  · rw [hr k, if_neg hk]

end Rewrites

theorem rewrites_addWorkerHashes (r : WorkerRegistry) (wid : String) (hashes : List String) :
    Rewrites wid r (r.addWorkerHashes wid hashes).1 := by
  unfold addWorkerHashes
  split
  · exact .refl wid r
  · exact .of_modify rfl fun _ => rfl

theorem rewrites_removeWorkerHashes (r : WorkerRegistry) (wid : String) (hashes : List String) :
    Rewrites wid r (r.removeWorkerHashes wid hashes).1 := by
  unfold removeWorkerHashes
  split
  · exact .refl wid r
  · exact .of_modify rfl fun _ => rfl

theorem rewrites_applyDeltas (r : WorkerRegistry) (wid : String) (p : HeartbeatPayload) :
    Rewrites wid r (r.applyDeltas wid p) := by
  unfold applyDeltas
  dsimp only
  split_ifs
  · exact .refl wid r
  · exact rewrites_addWorkerHashes r wid _
  · exact rewrites_removeWorkerHashes r wid _
  · exact (rewrites_addWorkerHashes r wid _).trans (rewrites_removeWorkerHashes _ wid _)

/-- **A heartbeat rewrites the record of its worker.** -/
theorem rewrites_recordHeartbeat (r : WorkerRegistry) (wid : String)
    (payload : Option HeartbeatPayload) (now : ℚ) :
    Rewrites wid r (r.recordHeartbeat wid payload now).1 := by
  unfold recordHeartbeat
  split
  · exact .refl wid r
  · have htouch : Rewrites wid r { r with workers := r.workers.modify wid (touch now) } :=
      .of_modify rfl fun _ => rfl
    cases payload with
    | none => exact htouch.trans (.of_modify (f := reviveStatus) rfl fun _ => rfl)
    | some p =>
      have hmetrics : Rewrites wid { r with workers := r.workers.modify wid (touch now) }
          { r with workers := (r.workers.modify wid (touch now)).modify wid (applyMetrics p) } :=
        .of_modify rfl fun _ => rfl
      have htelemetry : ∀ r' : WorkerRegistry, Rewrites wid r'
          { r' with workers := r'.workers.modify wid (applyTelemetry p now) } := fun r' =>
        .of_modify rfl fun _ => rfl
      exact (((htouch.trans hmetrics).trans (rewrites_applyDeltas _ wid p)).trans
        (htelemetry _)).trans (.of_modify (f := reviveStatus) rfl fun _ => rfl)

theorem recordHeartbeat_snd (r : WorkerRegistry) (wid : String) (payload : Option HeartbeatPayload)
    (now : ℚ) : (r.recordHeartbeat wid payload now).2 = (r.workers.get? wid).isSome := by
  unfold recordHeartbeat
  cases r.workers.get? wid with
  | none => rfl
  | some info => cases payload <;> rfl

theorem workers_registerWorker {info copy : WorkerInfo} {now : ℚ}
    (h : r.registerWorker info now = .ok (r', copy)) : ∃ wid,
      validateWorkerId info.workerId = .ok wid ∧ copy.workerId = info.workerId ∧
      copy.status = info.status ∧ r'.workers = r.workers.set wid copy ∧
      r'.healthRecords = r.registerHealth wid now := by
  unfold registerWorker at h
  split at h
  · cases h
  · rename_i wid hwid
    have h := Except.ok.inj h
    refine ⟨wid, hwid, ?_, ?_, ?_, ?_⟩
    · rw [← (Prod.mk.inj h).2]
    · rw [← (Prod.mk.inj h).2]
    · rw [← (Prod.mk.inj h).1, ← (Prod.mk.inj h).2]
      dsimp only
      split_ifs <;> rfl
    · rw [← (Prod.mk.inj h).1]
      dsimp only [registerHealth]
      split_ifs <;> rfl

theorem workers_unregisterWorker (r : WorkerRegistry) (wid k : String) :
    (r.unregisterWorker wid).1.workers.get? k = if k = wid then none else r.workers.get? k := by
  unfold unregisterWorker
  cases hw : r.workers.get? wid with
  | none =>
    dsimp only
    split_ifs with hk
    · rw [hk, hw]
    · rfl
  | some info => exact Dict.get?_erase ..

theorem unregisterWorker_snd (r : WorkerRegistry) (wid : String) :
    (r.unregisterWorker wid).2 = r.workers.get? wid := by
  unfold unregisterWorker
  cases hw : r.workers.get? wid <;> rfl

theorem foldl_evictOne (ids : List String) (acc : WorkerRegistry × List String) (k : String) :
    ((ids.foldl evictOne acc).1.workers.get? k = if k ∈ ids then none else acc.1.workers.get? k) ∧
      (k ∈ (ids.foldl evictOne acc).2 ↔
        k ∈ acc.2 ∨ k ∈ ids ∧ (acc.1.workers.get? k).isSome = true) := by
  induction ids generalizing acc with
  | nil => simp
  | cons wid ids ih =>
    have hfst : ∀ k, (evictOne acc wid).1.workers.get? k =
        if k = wid then none else acc.1.workers.get? k := by
      intro k
      rw [← workers_unregisterWorker]
      unfold evictOne
      split <;> rename_i heq <;> rw [heq]
    have hsnd : k ∈ (evictOne acc wid).2 ↔
        k ∈ acc.2 ∨ k = wid ∧ (acc.1.workers.get? k).isSome = true := by
      have hremoved := unregisterWorker_snd acc.1 wid
      unfold evictOne
      split <;> rename_i heq <;> rw [heq] at hremoved
      · rw [List.mem_append, List.mem_singleton]
        refine or_congr_right ⟨fun hk => ⟨hk, ?_⟩, fun hk => hk.1⟩
        rw [hk, ← hremoved]
        rfl
      · refine ⟨.inl, fun hk => hk.resolve_right ?_⟩
        rintro ⟨rfl, hsome⟩
        rw [← hremoved] at hsome
        cases hsome
    obtain ⟨hworkers, hevicted⟩ := ih (evictOne acc wid)
    rw [List.foldl_cons, hworkers, hevicted, hsnd, hfst]
    constructor
    · by_cases hk : k = wid <;> by_cases hin : k ∈ ids <;> simp [hk, hin]
    · by_cases hk : k = wid <;> by_cases hin : k ∈ ids <;> simp [hk, hin]

end WorkerRegistry

/-! ## The mirror -/

namespace PersistedRegistry

variable {cfg : RegistryConfig} {readable : WorkerInfo → Bool} {c : PersistedRegistry}
  {info : WorkerInfo} {wid k : String} {now : ℚ} {op : Op} {ops : List Op}

/-- A worker is registered under the identifier. -/
def Registered (c : PersistedRegistry) (k : String) : Prop :=
  (c.registry.workers.get? k).isSome = true

/-- There is a row for the identifier. -/
def Stored (c : PersistedRegistry) (k : String) : Prop := (c.rows.get? k).isSome = true

instance (c : PersistedRegistry) (k : String) : Decidable (Registered c k) :=
  inferInstanceAs (Decidable (_ = true))

/-- The rows are those of the registered workers, and each worker is listed under the identifier in
its record. -/
structure Mirrors (c : PersistedRegistry) : Prop where
  rows : ∀ k, Stored c k ↔ Registered c k
  listed : ∀ k info, c.registry.workers.get? k = some info → info.workerId = k

/-- A call that keeps the mirror: an identifier that is registered is already stripped, and there is
a row for it or one can be written, and at a restart every row can be read. -/
def Keeps (readable : WorkerInfo → Bool) (c : PersistedRegistry) : Op → Prop
  | .registerWorker info _ => ∀ wid, validateWorkerId info.workerId = .ok wid →
    wid = info.workerId ∧ (info.lastHeartbeatUtc = .nan → Stored c wid)
  | .restart _ => ∀ k info, c.rows.get? k = some info → readable info = true
  | _ => True

/-- All calls keep the mirror. -/
def KeepsThroughout (cfg : RegistryConfig) (readable : WorkerInfo → Bool) (ops : List Op) : Prop :=
  ∀ pre op, pre ++ [op] <+: ops → Keeps readable (run cfg readable pre) op

/-- The invariant of a run that keeps the mirror. -/
structure MirrorInv (c : PersistedRegistry) : Prop extends Mirrors c where
  keyed : ∀ k info, c.rows.get? k = some info → info.workerId = k
  stripped : ∀ k, Registered c k → validateWorkerId k = .ok k

/-- A registration that is accepted stores the record twice: under the stripped identifier in the
registry, under its own one in the store. -/
theorem registerWorker_ok (c : PersistedRegistry) (now : ℚ)
    (h : validateWorkerId info.workerId = .ok wid) : ∃ copy, copy.workerId = info.workerId ∧
      (copy.lastHeartbeatUtc = .nan ↔ info.lastHeartbeatUtc = .nan) ∧
      (c.registerWorker info now).registry.workers = c.registry.workers.set wid copy ∧
      (c.registerWorker info now).rows = StateStore.saveWorker c.rows copy := by
  unfold registerWorker WorkerRegistry.registerWorker
  rw [h]
  refine ⟨_, ?_, ?_, ?_, rfl⟩
  · rfl
  · cases hbeat : info.lastHeartbeatUtc with
    | finite q =>
      dsimp only
      split_ifs <;> simp
    | _ => simp [PyFloat.le, PyFloat.lt]
  · dsimp only
    split_ifs <;> rfl

theorem registerWorker_error (c : PersistedRegistry) (now : ℚ) {e : ValueError}
    (h : validateWorkerId info.workerId = .error e) : c.registerWorker info now = c := by
  unfold registerWorker WorkerRegistry.registerWorker
  rw [h]

theorem MirrorInv.init : MirrorInv {} where
  rows _ := Iff.rfl
  listed _ _ h := nomatch h
  keyed _ _ h := nomatch h
  stripped _ h := nomatch h

theorem MirrorInv.set (hc : MirrorInv c) {copy : WorkerInfo} {c' : PersistedRegistry}
    (hid : copy.workerId = wid) (hwid : validateWorkerId wid = .ok wid)
    (hsaved : copy.lastHeartbeatUtc = .nan → Stored c wid)
    (hworkers : c'.registry.workers = c.registry.workers.set wid copy)
    (hrows : c'.rows = StateStore.saveWorker c.rows copy) : MirrorInv c' := by
  refine ⟨⟨fun k => ?_, fun k info h => ?_⟩, fun k info h => ?_, fun k h => ?_⟩
  · unfold Stored Registered
    rw [hworkers, hrows, Dict.get?_set, StateStore.get?_saveWorker, hid]
    by_cases hk : k = wid
    · rw [if_pos hk]
      split_ifs with h
      · exact Iff.rfl
      · rw [hk]
        exact iff_of_true (hsaved (not_not.mp fun hne => h ⟨hk, hne⟩)) rfl
    · rw [if_neg hk, if_neg fun h => hk h.1]
      exact hc.rows k
  · rw [hworkers, Dict.get?_set] at h
    split_ifs at h with hk
    · obtain rfl := Option.some.inj h
      rw [hid, hk]
    · exact hc.listed k info h
  · rw [hrows, StateStore.get?_saveWorker, hid] at h
    split_ifs at h with hk
    · obtain rfl := Option.some.inj h
      rw [hid, hk.1]
    · exact hc.keyed k info h
  · unfold Registered at h
    rw [hworkers, Dict.get?_set] at h
    split_ifs at h with hk
    · rw [hk]
      exact hwid
    · exact hc.stripped k h

theorem MirrorInv.registerWorker (hc : MirrorInv c) (now : ℚ)
    (h : ∀ wid, validateWorkerId info.workerId = .ok wid →
      wid = info.workerId ∧ (info.lastHeartbeatUtc = .nan → Stored c wid)) :
    MirrorInv (c.registerWorker info now) := by
  cases hid : validateWorkerId info.workerId with
  | error e =>
    rw [registerWorker_error c now hid]
    exact hc
  | ok wid =>
    obtain ⟨copy, hcopy, hnan, hworkers, hrows⟩ := registerWorker_ok c now hid
    obtain ⟨rfl, hsaved⟩ := h wid hid
    exact hc.set hcopy hid (fun h => hsaved (hnan.mp h)) hworkers hrows

theorem MirrorInv.erase (hc : MirrorInv c) {c' : PersistedRegistry} (gone : String → Prop)
    [DecidablePred gone]
    (hworkers : ∀ k, c'.registry.workers.get? k =
      if gone k then none else c.registry.workers.get? k)
    (hrows : ∀ k, c'.rows.get? k = if gone k then none else c.rows.get? k) : MirrorInv c' := by
  refine ⟨⟨fun k => ?_, fun k info h => ?_⟩, fun k info h => ?_, fun k h => ?_⟩
  · unfold Stored Registered
    rw [hworkers, hrows]
    split_ifs
    · exact Iff.rfl
    · exact hc.rows k
  · rw [hworkers] at h
    split_ifs at h
    exact hc.listed k info h
  · rw [hrows] at h
    split_ifs at h
    exact hc.keyed k info h
  · unfold Registered at h
    rw [hworkers] at h
    split_ifs at h
    · cases h
    · exact hc.stripped k h

theorem MirrorInv.unregisterWorker (hc : MirrorInv c) (wid : String) :
    MirrorInv (c.unregisterWorker wid) := by
  refine hc.erase (· = wid) (fun k => ?_) (fun k => ?_)
  · exact WorkerRegistry.workers_unregisterWorker c.registry wid k
  · unfold PersistedRegistry.unregisterWorker
    dsimp only
    rw [WorkerRegistry.unregisterWorker_snd]
    by_cases hreg : (c.registry.workers.get? wid).isSome = true
    · rw [if_pos hreg]
      exact Dict.get?_erase ..
    · rw [if_neg hreg]
      split_ifs with hk
      · -- a worker that is not registered has no row
        rw [hk]
        exact Option.not_isSome_iff_eq_none.1 fun hs => hreg ((hc.rows wid).1 hs)
      · rfl

theorem get?_foldl_deleteWorker (ids : List String) (rows : Dict String WorkerInfo) (k : String) :
    (ids.foldl StateStore.deleteWorker rows).get? k = if k ∈ ids then none else rows.get? k := by
  induction ids generalizing rows with
  | nil => rfl
  | cons id ids ih =>
    rw [List.foldl_cons, ih, StateStore.deleteWorker, Dict.get?_erase]
    by_cases hk : k = id <;> by_cases hin : k ∈ ids <;> simp [hk, hin]

theorem MirrorInv.evictExpiredWorkers (hc : MirrorInv c) (timeoutSeconds : Option ℚ) (now : ℚ) :
    MirrorInv (c.evictExpiredWorkers cfg timeoutSeconds now) := by
  have hevict := WorkerRegistry.foldl_evictOne
    (WorkerRegistry.expiredIds c.registry (now - timeoutSeconds.getD cfg.heartbeatTimeout))
    (c.registry, [])
  refine hc.erase (· ∈ (WorkerRegistry.evictExpiredWorkers cfg c.registry timeoutSeconds now).2)
    (fun k => ?_) (fun k => ?_)
  · obtain ⟨hworkers, hevicted⟩ := hevict k
    refine hworkers.trans ?_
    rw [WorkerRegistry.evictExpiredWorkers, if_congr hevicted rfl rfl]
    by_cases hin : k ∈ WorkerRegistry.expiredIds c.registry
      (now - timeoutSeconds.getD cfg.heartbeatTimeout)
    · cases hget : c.registry.workers.get? k <;> simp [hin]
    · simp [hin]
  · exact get?_foldl_deleteWorker ..

theorem MirrorInv.rewrite (hc : MirrorInv c) {registry : WorkerRegistry} {info : WorkerInfo}
    (hr : WorkerRegistry.Rewrites wid c.registry registry)
    (hinfo : registry.workers.get? wid = some info) :
    MirrorInv { registry, rows := StateStore.saveWorker c.rows info } := by
  obtain ⟨f, hf, hworkers⟩ := hr
  have hold : ∃ old, c.registry.workers.get? wid = some old ∧ f old = info := by
    rw [hworkers, if_pos rfl] at hinfo
    exact Option.map_eq_some_iff.1 hinfo
  obtain ⟨old, hold, rfl⟩ := hold
  have hid : (f old).workerId = wid := (hf old).trans (hc.listed wid old hold)
  have hreg : Registered c wid := by
    unfold Registered
    rw [hold]
    rfl
  refine ⟨⟨fun k => ?_, fun k info h => ?_⟩, fun k info h => ?_, fun k h => ?_⟩
  · unfold Stored Registered
    dsimp only
    rw [StateStore.get?_saveWorker, hid, hworkers]
    by_cases hk : k = wid
    · rw [if_pos hk, hold]
      split_ifs
      · exact Iff.rfl
      · rw [hk]
        exact iff_of_true ((hc.rows wid).2 hreg) rfl
    · rw [if_neg hk, if_neg fun h => hk h.1]
      exact hc.rows k
  · dsimp only at h
    rw [hworkers] at h
    split_ifs at h with hk
    · rw [hold] at h
      obtain rfl := Option.some.inj h
      rw [hid, hk]
    · exact hc.listed k info h
  · dsimp only at h
    rw [StateStore.get?_saveWorker, hid] at h
    split_ifs at h with hk
    · obtain rfl := Option.some.inj h
      rw [hid, hk.1]
    · exact hc.keyed k info h
  · by_cases hk : k = wid
    · rw [hk]
      exact hc.stripped wid hreg
    · refine hc.stripped k ?_
      unfold Registered at h ⊢
      rwa [hworkers, if_neg hk] at h

theorem MirrorInv.recordHeartbeat (hc : MirrorInv c) (wid : String)
    (payload : Option HeartbeatPayload) (now : ℚ) :
    MirrorInv (c.recordHeartbeat wid payload now) := by
  have hr := WorkerRegistry.rewrites_recordHeartbeat c.registry wid payload now
  unfold PersistedRegistry.recordHeartbeat
  dsimp only
  rw [WorkerRegistry.recordHeartbeat_snd]
  split_ifs with hreg
  · obtain ⟨old, hold⟩ := Option.isSome_iff_exists.1 hreg
    have hget : ∃ info, (c.registry.recordHeartbeat wid payload now).1.workers.get? wid =
        some info := by
      obtain ⟨f, -, hworkers⟩ := hr
      exact ⟨f old, by rw [hworkers, if_pos rfl, hold, Option.map_some]⟩
    obtain ⟨info, hinfo⟩ := hget
    rw [hinfo]
    exact hc.rewrite hr hinfo
  · exact hc

theorem rewrites_setWorkerStatus (r : WorkerRegistry) (wid : String) (status : WorkerStatus) :
    WorkerRegistry.Rewrites wid r (r.setWorkerStatus wid status) :=
  .of_modify (f := fun w => { w with status }) rfl fun _ => rfl

theorem MirrorInv.setWorkerStatus (hc : MirrorInv c) (wid : String) (status : WorkerStatus) :
    MirrorInv (c.setWorkerStatus wid status) := by
  unfold PersistedRegistry.setWorkerStatus
  split
  · exact hc
  · rename_i worker hget
    split_ifs
    · exact hc
    · refine hc.rewrite (rewrites_setWorkerStatus c.registry wid status) ?_
      show (c.registry.workers.modify wid _).get? wid = _
      rw [Dict.get?_modify, if_pos rfl, hget, Option.map_some]

/-- Workers whose identifiers are stripped are registered again under the rows they were read
from. -/
theorem MirrorInv.restoreWorkers {infos : List WorkerInfo} (hc : ∀ k, Registered c k →
      validateWorkerId k = .ok k ∧ ∃ info, c.registry.workers.get? k = some info ∧
        info.workerId = k)
    (hkeyed : ∀ k info, c.rows.get? k = some info → info.workerId = k)
    (hinfos : ∀ info ∈ infos, validateWorkerId info.workerId = .ok info.workerId)
    (hrows : ∀ k, Stored c k ↔ Registered c k ∨ ∃ info ∈ infos, info.workerId = k) :
    MirrorInv (c.restoreWorkers infos now) := by
  induction infos generalizing c with
  | nil =>
    show MirrorInv c
    refine ⟨⟨fun k => ?_, fun k info h => ?_⟩, hkeyed, fun k h => (hc k h).1⟩
    · simpa using hrows k
    · obtain ⟨-, info', hget, hid⟩ := hc k (by unfold Registered; rw [h]; rfl)
      obtain rfl := Option.some.inj (h.symm.trans hget)
      exact hid
  | cons info infos ih =>
    obtain ⟨hinfo, hrest⟩ := List.forall_mem_cons.1 hinfos
    have hunverified : validateWorkerId (unverified info now).workerId = .ok info.workerId := hinfo
    obtain ⟨copy, hid, hnan, hworkers', hrows'⟩ := registerWorker_ok c now hunverified
    have hid : copy.workerId = info.workerId := hid
    have hsaved : copy.lastHeartbeatUtc ≠ .nan := fun h => nomatch hnan.mp h
    rw [StateStore.saveWorker, if_neg hsaved, hid] at hrows'
    refine ih (c := c.registerWorker _ now) (fun k h => ?_) (fun k i h => ?_) hrest fun k => ?_
    · unfold Registered at h
      rw [hworkers', Dict.get?_set] at h ⊢
      split_ifs at h ⊢ with hk
      · exact ⟨hk ▸ hinfo, copy, rfl, hid.trans hk.symm⟩
      · exact hc k h
    · rw [hrows', Dict.get?_set] at h
      split_ifs at h with hk
      · obtain rfl := Option.some.inj h
        exact hid.trans hk.symm
      · exact hkeyed k i h
    · have hold := hrows k
      unfold Stored Registered at hold ⊢
      rw [hworkers', hrows', Dict.get?_set, Dict.get?_set]
      split_ifs with hk
      · simp
      · rw [hold, List.exists_mem_cons_iff]
        simp [Ne.symm hk]

theorem MirrorInv.restart (hc : MirrorInv c) (now : ℚ)
    (hreadable : ∀ k info, c.rows.get? k = some info → readable info = true) :
    MirrorInv (c.restart readable now) := by
  have hload : ∀ info, info ∈ StateStore.loadWorkers readable c.rows ↔
      c.rows.get? info.workerId = some info := by
    intro info
    rw [StateStore.loadWorkers, List.mem_filter, Dict.mem_values]
    constructor
    · rintro ⟨⟨k, hk⟩, -⟩
      rw [hc.keyed k info hk]
      exact hk
    · exact fun h => ⟨⟨_, h⟩, hreadable _ info h⟩
  refine MirrorInv.restoreWorkers (c := { rows := c.rows }) (fun k h => nomatch h) hc.keyed
    (fun info hinfo => ?_) fun k => ?_
  · have hget := (hload info).1 hinfo
    exact hc.stripped _ ((hc.rows _).1 (by unfold Stored; rw [hget]; rfl))
  · constructor
    · intro hs
      obtain ⟨info, hinfo⟩ := Option.isSome_iff_exists.1 hs
      have hid := hc.keyed k info hinfo
      exact .inr ⟨info, (hload info).2 (hid.symm ▸ hinfo), hid⟩
    · rintro (h | ⟨info, hinfo, rfl⟩)
      · cases h
      · show ((c.rows.get? info.workerId).isSome = true)
        rw [(hload info).1 hinfo]
        rfl

/-- **A call that keeps the mirror.** -/
theorem MirrorInv.apply (hc : MirrorInv c) (h : Keeps readable c op) :
    MirrorInv (apply cfg readable c op) := by
  cases op with
  | registerWorker info now => exact hc.registerWorker now h
  | unregisterWorker wid => exact hc.unregisterWorker wid
  | recordHeartbeat wid payload now => exact hc.recordHeartbeat wid payload now
  | setWorkerStatus wid status => exact hc.setWorkerStatus wid status
  | evictExpiredWorkers timeoutSeconds now => exact hc.evictExpiredWorkers timeoutSeconds now
  | restart now => exact hc.restart now h

theorem run_append (ops : List Op) (op : Op) :
    run cfg readable (ops ++ [op]) = apply cfg readable (run cfg readable ops) op := by
  rw [run, List.foldl_append]
  rfl

theorem KeepsThroughout.of_prefix {pre : List Op} (h : KeepsThroughout cfg readable ops)
    (hpre : pre <+: ops) : KeepsThroughout cfg readable pre :=
  fun pre' op hop => h pre' op (hop.trans hpre)

theorem mirrorInv_run (h : KeepsThroughout cfg readable ops) :
    MirrorInv (run cfg readable ops) := by
  induction ops using List.reverseRecOn with
  | nil => exact .init
  | append_singleton ops op ih =>
    rw [run_append]
    exact (ih (h.of_prefix (List.prefix_append ops [op]))).apply (h ops op List.prefix_rfl)

/-! ## Workers that are gone -/

theorem stored_registerWorker (h : Stored (c.registerWorker info now) k) :
    Stored c k ∨ k = info.workerId := by
  cases hid : validateWorkerId info.workerId with
  | error e =>
    rw [registerWorker_error c now hid] at h
    exact .inl h
  | ok wid =>
    obtain ⟨copy, hcopy, -, -, hrows⟩ := registerWorker_ok c now hid
    unfold Stored at h
    rw [hrows, StateStore.get?_saveWorker, hcopy] at h
    split_ifs at h with hk
    · exact .inr hk.1
    · exact .inl h

theorem stored_mono_registerWorker (h : Stored c k) : Stored (c.registerWorker info now) k := by
  cases hid : validateWorkerId info.workerId with
  | error e =>
    rw [registerWorker_error c now hid]
    exact h
  | ok wid =>
    obtain ⟨copy, -, -, -, hrows⟩ := registerWorker_ok c now hid
    unfold Stored at h ⊢
    rw [hrows, StateStore.get?_saveWorker]
    split_ifs
    · rfl
    · exact h

theorem registered_registerWorker (h : Registered (c.registerWorker info now) k) :
    Registered c k ∨ validateWorkerId info.workerId = .ok k := by
  cases hid : validateWorkerId info.workerId with
  | error e =>
    rw [registerWorker_error c now hid] at h
    exact .inl h
  | ok wid =>
    obtain ⟨copy, -, -, hworkers, -⟩ := registerWorker_ok c now hid
    unfold Registered at h
    rw [hworkers, Dict.get?_set] at h
    split_ifs at h with hk
    · exact .inr (congrArg _ hk.symm)
    · exact .inl h

theorem stored_restoreWorkers {infos : List WorkerInfo}
    (h : Stored (c.restoreWorkers infos now) k) :
      Stored c k ∨ ∃ info ∈ infos, info.workerId = k := by
  induction infos generalizing c with
  | nil => exact .inl h
  | cons info infos ih =>
    rcases ih h with h | ⟨i, hi, hid⟩
    · rcases stored_registerWorker h with h | rfl
      · exact .inl h
      · exact .inr ⟨info, List.mem_cons_self, rfl⟩
    · exact .inr ⟨i, List.mem_cons_of_mem _ hi, hid⟩

theorem registered_of_rewrites {registry : WorkerRegistry}
    (hr : WorkerRegistry.Rewrites wid c.registry registry)
    (h : (registry.workers.get? k).isSome = true) : Registered c k := by
  obtain ⟨f, -, hworkers⟩ := hr
  rw [hworkers] at h
  unfold Registered
  split_ifs at h with hk
  · rw [hk]
    simpa using h
  · exact h

theorem registered_apply (hc : MirrorInv c) (hkeep : Keeps readable c op)
    (hreg : ∀ info now, op = .registerWorker info now → validateWorkerId info.workerId ≠ .ok k)
    (h : Registered (apply cfg readable c op) k) : Registered c k := by
  cases op with
  | registerWorker info now =>
    exact (registered_registerWorker h).resolve_right (hreg info now rfl)
  | unregisterWorker wid =>
    have h : ((c.registry.unregisterWorker wid).1.workers.get? k).isSome = true := h
    rw [WorkerRegistry.workers_unregisterWorker] at h
    split_ifs at h
    · cases h
    · exact h
  | recordHeartbeat wid payload now =>
    have h : Registered (c.recordHeartbeat wid payload now) k := h
    unfold PersistedRegistry.recordHeartbeat at h
    dsimp only at h
    split_ifs at h
    · exact registered_of_rewrites (WorkerRegistry.rewrites_recordHeartbeat ..) h
    · exact h
  | setWorkerStatus wid status =>
    have h : Registered (c.setWorkerStatus wid status) k := h
    unfold PersistedRegistry.setWorkerStatus at h
    split at h
    · exact h
    · split_ifs at h
      · exact h
      · exact registered_of_rewrites (rewrites_setWorkerStatus c.registry wid status) h
  | evictExpiredWorkers timeoutSeconds now =>
    have h : (((WorkerRegistry.expiredIds c.registry _).foldl WorkerRegistry.evictOne
      (c.registry, [])).1.workers.get? k).isSome = true := h
    rw [(WorkerRegistry.foldl_evictOne _ _ k).1] at h
    split_ifs at h
    · cases h
    · exact h
  | restart now =>
    have hstored := ((hc.restart now hkeep).rows k).2 h
    rcases stored_restoreWorkers hstored with hs | ⟨info, hinfo, rfl⟩
    · exact (hc.rows k).1 hs
    · obtain ⟨k', hk'⟩ := Dict.mem_values.1 (List.mem_of_mem_filter hinfo)
      refine (hc.rows _).1 ?_
      unfold Stored
      rw [hc.keyed k' info hk', hk']
      rfl

/-- The rows mirror the registry after every call. -/
def MirrorsThroughout (cfg : RegistryConfig) (readable : WorkerInfo → Bool) (ops : List Op) :
    Prop :=
  ∀ pre, pre <+: ops → Mirrors (run cfg readable pre)

/-- A worker that was unregistered or evicted does not reappear, after a restart or otherwise,
before it is registered again. -/
def StaysGone (cfg : RegistryConfig) (readable : WorkerInfo → Bool) (ops : List Op) : Prop :=
  ∀ pre op post k, pre ++ op :: post <+: ops → Registered (run cfg readable pre) k →
    ¬ Registered (run cfg readable (pre ++ [op])) k →
    (∀ info now, .registerWorker info now ∈ post → validateWorkerId info.workerId ≠ .ok k) →
    ¬ Registered (run cfg readable (pre ++ op :: post)) k

theorem staysGone (h : KeepsThroughout cfg readable ops) : StaysGone cfg readable ops := by
  intro pre op post k hpre _ hgone hreg
  induction post using List.reverseRecOn with
  | nil => exact hgone
  | append_singleton post last ih =>
    have hassoc : pre ++ op :: (post ++ [last]) = (pre ++ op :: post) ++ [last] := by simp
    rw [hassoc] at hpre ⊢
    have hbefore : pre ++ op :: post <+: ops := (List.prefix_append _ [last]).trans hpre
    rw [run_append]
    refine fun hr => ih hbefore (fun info now hmem => hreg info now (List.mem_append_left _ hmem))
      (registered_apply (mirrorInv_run (h.of_prefix hbefore)) (h _ last hpre) ?_ hr)
    rintro info now rfl
    exact hreg info now (List.mem_append_right _ (List.mem_singleton_self _))

theorem stored_mono_restoreWorkers {infos : List WorkerInfo} (h : Stored c k) :
    Stored (c.restoreWorkers infos now) k := by
  induction infos generalizing c with
  | nil => exact h
  | cons info infos ih => exact ih (stored_mono_registerWorker h)

theorem registered_restoreWorkers {infos : List WorkerInfo}
    (h : Registered (c.restoreWorkers infos now) k) :
    Registered c k ∨ ∃ info ∈ infos, validateWorkerId info.workerId = .ok k := by
  induction infos generalizing c with
  | nil => exact .inl h
  | cons info infos ih =>
    rcases ih h with h | ⟨i, hi, hid⟩
    · exact (registered_registerWorker h).imp_right fun hid => ⟨info, List.mem_cons_self, hid⟩
    · exact .inr ⟨i, List.mem_cons_of_mem _ hi, hid⟩

/-- A call after which the rows mirror the registry keeps the mirror. -/
theorem keeps_of_mirrors (hc : MirrorInv c) (h : Mirrors (apply cfg readable c op)) :
    Keeps readable c op := by
  cases op with
  | registerWorker info now =>
    intro wid hid
    obtain ⟨copy, hcopy, hnan, hworkers, hrows⟩ := registerWorker_ok c now hid
    have hget : (c.registerWorker info now).registry.workers.get? wid = some copy := by
      rw [hworkers, Dict.get?_set, if_pos rfl]
    refine ⟨by rw [← hcopy, h.listed wid copy hget], fun hbeat => ?_⟩
    -- the row of the worker was not written in this call
    have hstored : Stored (c.registerWorker info now) wid :=
      (h.rows wid).2 (Option.isSome_iff_exists.2 ⟨copy, hget⟩)
    unfold Stored at hstored
    rwa [hrows, StateStore.get?_saveWorker, if_neg fun hno => hno.2 (hnan.mpr hbeat)] at hstored
  | restart now =>
    intro k info hinfo
    have hstored : Stored c k := by
      unfold Stored
      rw [hinfo]
      rfl
    have hreg := (h.rows k).1 (stored_mono_restoreWorkers (c := { rows := c.rows }) hstored)
    rcases registered_restoreWorkers hreg with hnone | ⟨i, hi, hid⟩
    · cases hnone
    · -- the worker that was registered is the one of this row
      obtain ⟨hvalues, hread⟩ := List.mem_filter.1 hi
      obtain ⟨k', hk'⟩ := Dict.mem_values.1 hvalues
      obtain rfl := hc.keyed k' i hk'
      have hstripped := hc.stripped _ ((hc.rows i.workerId).1 (by unfold Stored; rw [hk']; rfl))
      obtain rfl := Except.ok.inj (hstripped.symm.trans hid)
      obtain rfl := Option.some.inj (hinfo.symm.trans hk')
      exact hread
  | _ => trivial

theorem keepsThroughout_of_mirrors (h : MirrorsThroughout cfg readable ops) :
    KeepsThroughout cfg readable ops := by
  induction ops using List.reverseRecOn with
  | nil => exact fun pre op hpre => absurd (List.prefix_nil.1 hpre) (by simp)
  | append_singleton ops op ih =>
    have hops : KeepsThroughout cfg readable ops :=
      ih fun pre hpre => h pre (hpre.trans (List.prefix_append ops [op]))
    intro pre op' hpre
    rcases List.prefix_concat_iff.1 hpre with heq | hpre
    · obtain ⟨rfl, hop⟩ := List.append_inj' heq rfl
      obtain rfl := List.head_eq_of_cons_eq hop
      have hlast := h _ List.prefix_rfl
      rw [run_append] at hlast
      exact keeps_of_mirrors (mirrorInv_run hops) hlast
    · exact hops pre op' hpre

/-- A worker whose identifier has a space in front. -/
def paddedWorker : WorkerInfo where
  workerId := " w1"
  endpointUrl := "http://w1:8000"
  ipAddress := "10.0.0.1"
  port := 8000
  lastHeartbeatUtc := 1

end PersistedRegistry

end Aidars
