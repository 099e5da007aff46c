import Aidars.Registry.Heartbeat
import Aidars.Store.Workers

/-!
# Workers that are restored twice

A restart registers each worker from its row and writes its record back. The copy that is stored is
offline, its heartbeat is that of the restart, and its inventory is made of the valid hashes
(`storedCopy`). Restoring the rows that were left gives the same registry: `alike_restoreWorkers`.
Records are compared without the times at which they were restored, and inventories as sets.
-/

namespace Aidars

/-- Two records of a worker that differ in the time of the heartbeat and in the order of the
inventory at most. -/
structure WorkerInfo.Alike (a b : WorkerInfo) : Prop where
  fields : { a with lastHeartbeatUtc := 0, inventoryHashes := ∅ } =
    { b with lastHeartbeatUtc := 0, inventoryHashes := ∅ }
  inventory : ∀ h, h ∈ a.inventoryHashes ↔ h ∈ b.inventoryHashes

/-- Two health records of a worker that differ in the time of the last decay at most. -/
def WorkerHealthRecord.Alike (a b : WorkerHealthRecord) : Prop :=
  { a with lastDecayUtc := 0 } = { b with lastDecayUtc := 0 }

namespace WorkerRegistry

/-- Two registries with the same workers and health records. -/
structure AlikeRecords (r r' : WorkerRegistry) : Prop where
  worker : ∀ k, Option.Rel WorkerInfo.Alike (r.workers.get? k) (r'.workers.get? k)
  health : ∀ k, Option.Rel WorkerHealthRecord.Alike (r.healthRecords.get? k)
    (r'.healthRecords.get? k)

/-- Two registries with the same workers, health records and holders of hashes. -/
structure Alike (r r' : WorkerRegistry) : Prop extends AlikeRecords r r' where
  holder : ∀ h k, k ∈ (r.hashIndex.get? h).getD ∅ ↔ k ∈ (r'.hashIndex.get? h).getD ∅

variable {r r' : WorkerRegistry} {k : String}

theorem IndexInv.mem_hashesOf (hr : IndexInv r) (k h : String) :
    h ∈ r.hashesOf k ↔ ∃ info, r.workers.get? k = some info ∧ h ∈ info.inventoryHashes := by
  constructor
  · intro hmem
    cases hk : r.workers.get? k with
    | none =>
      have hnone : r.workerHashes.get? k = none := by
        rw [← Option.not_isSome_iff_eq_none, ← hr.keys k, hk]
        exact Bool.false_ne_true
      rw [hashesOf, hnone] at hmem
      exact absurd hmem (PySet.notMem_empty h)
    | some info => exact ⟨info, rfl, hr.inventory k info hk ▸ hmem⟩
  · rintro ⟨info, hk, hmem⟩
    exact hr.inventory k info hk ▸ hmem

/-- The holders of hashes follow from the records of the workers. -/
theorem AlikeRecords.alike (hrecords : AlikeRecords r r') (hr : IndexInv r) (hr' : IndexInv r') :
    Alike r r' := by
  refine ⟨hrecords, fun h k => ?_⟩
  have hindex : k ∈ (r.hashIndex.get? h).getD ∅ ↔ h ∈ r.hashesOf k := hr.indexes.mem_holders h k
  have hindex' : k ∈ (r'.hashIndex.get? h).getD ∅ ↔ h ∈ r'.hashesOf k :=
    hr'.indexes.mem_holders h k
  rw [hindex, hindex', hr.mem_hashesOf, hr'.mem_hashesOf]
  have hk := hrecords.worker k
  revert hk
  cases r.workers.get? k <;> cases r'.workers.get? k <;> intro hk
  · simp
  · cases hk
  · cases hk
  · rename_i a b
    obtain ⟨hab⟩ := hk
    simp only [Option.some.injEq, exists_eq_left']
    exact hab.inventory h

theorem AlikeRecords.registerHealth (h : AlikeRecords r r') {now now' : ℚ} (wid k : String) :
    Option.Rel WorkerHealthRecord.Alike ((r.registerHealth wid now).get? k)
      ((r'.registerHealth wid now').get? k) := by
  have hk := h.health k
  have hwid := h.health wid
  unfold WorkerRegistry.registerHealth
  revert hwid
  cases r.healthRecords.get? wid <;> cases r'.healthRecords.get? wid <;> intro hwid
  · dsimp only
    rw [Dict.get?_set, Dict.get?_set]
    split_ifs
    · exact .some rfl
    · exact hk
  · cases hwid
  · cases hwid
  · rename_i a b
    obtain ⟨hab⟩ := hwid
    unfold WorkerHealthRecord.Alike at hab
    have hstatus : a.healthStatus = b.healthStatus := (WorkerHealthRecord.mk.inj hab).2.1
    have hrevived : WorkerHealthRecord.Alike
        { a with healthStatus := .healthy, consecutiveFailures := 0 }
        { b with healthStatus := .healthy, consecutiveFailures := 0 } := by
      injection hab
      unfold WorkerHealthRecord.Alike
      congr
    dsimp only
    rw [hstatus]
    split_ifs
    · rw [Dict.get?_set, Dict.get?_set]
      split_ifs
      · exact .some hrevived
      · exact hk
    · exact hk

end WorkerRegistry

namespace PersistedRegistry

open WorkerRegistry

variable {c : PersistedRegistry} {info : WorkerInfo} {now now' : ℚ} {wid k : String}

/-- The record that a restart stores for a worker. -/
def storedCopy (now : ℚ) (info : WorkerInfo) : WorkerInfo :=
  { unverified info now with
    inventoryHashes := (info.inventoryHashes.toList.foldl (registerHash "") ⟨∅, ∅, 0⟩).held }

theorem held_foldl_registerHash (v w : String) (hashes : List String) {acc acc' : HashLoop}
    (h : acc.held = acc'.held) : (hashes.foldl (registerHash v) acc).held =
      (hashes.foldl (registerHash w) acc').held := by
  induction hashes generalizing acc acc' with
  | nil => exact h
  | cons rawH hashes ih =>
    refine ih ?_
    unfold registerHash
    cases validateSha256Hex rawH with
    | ok normH => exact congrArg (PySet.insert · normH) h
    | error e => exact h

/-- **A worker is restored**: the same record is registered and stored. -/
theorem registerWorker_unverified (c : PersistedRegistry) (now : ℚ)
    (h : validateWorkerId info.workerId = .ok wid) :
    let c' := c.registerWorker (unverified info now) now
    c'.registry.workers = c.registry.workers.set wid (storedCopy now info) ∧
      c'.registry.healthRecords = c.registry.registerHealth wid now ∧
      c'.rows = c.rows.set info.workerId (storedCopy now info) := by
  have hheld : ∀ index, ((unverified info now).inventoryHashes.toList.foldl (registerHash wid)
      ⟨∅, index, 0⟩).held =
        (info.inventoryHashes.toList.foldl (registerHash "") ⟨∅, ∅, 0⟩).held := fun index =>
    held_foldl_registerHash wid "" _ rfl
  have htime : (if (unverified info now).lastHeartbeatUtc.le 0 then (now : PyFloat)
      else (unverified info now).lastHeartbeatUtc) = now := ite_self _
  have hid : validateWorkerId (unverified info now).workerId = .ok wid := h
  intro c'
  have hc' : c' = c.registerWorker (unverified info now) now := rfl
  unfold registerWorker WorkerRegistry.registerWorker at hc'
  rw [hid] at hc'
  dsimp only at hc'
  rw [htime, hheld] at hc'
  rw [hc']
  refine ⟨?_, ?_, rfl⟩
  · dsimp only
    split_ifs <;> rfl
  · dsimp only [registerHealth]
    split_ifs <;> rfl

theorem registerWorker_unverified_error (c : PersistedRegistry) (now : ℚ) {e : ValueError}
    (h : validateWorkerId info.workerId = .error e) :
    c.registerWorker (unverified info now) now = c :=
  registerWorker_error c now h

theorem indexInv_restoreWorkers (infos : List WorkerInfo) (h : IndexInv c.registry) :
    IndexInv (c.restoreWorkers infos now).registry := by
  refine foldl_invariant (fun c : PersistedRegistry => IndexInv c.registry) (fun c info hc => ?_) h
  unfold registerWorker
  split
  · exact hc.registerWorker ‹_›
  · exact hc

/-! ## The rows -/

/-- Every row is that of a worker with a valid identifier, under this identifier. -/
def Readable (rows : Dict String WorkerInfo) : Prop :=
  ∀ k info, rows.get? k = some info → info.workerId = k ∧ ∃ wid, validateWorkerId k = .ok wid

theorem Readable.mem_values {rows : Dict String WorkerInfo} (h : Readable rows)
    (hinfo : info ∈ rows.values) : rows.get? info.workerId = some info ∧
      ∃ wid, validateWorkerId info.workerId = .ok wid := by
  obtain ⟨k, hk⟩ := Dict.mem_values.1 hinfo
  obtain ⟨rfl, hwid⟩ := h k info hk
  exact ⟨hk, hwid⟩

theorem Readable.map_values {rows : Dict String WorkerInfo} (h : Readable rows) :
    rows.values.map (·.workerId) = rows.keys := by
  have hmap : (rows.values.filterMap some).map (·.workerId) = rows.keys :=
    Dict.map_filterMap_values fun k info hk => ⟨info, rfl, (h k info hk).1⟩
  rwa [List.filterMap_some] at hmap

/-- Rows are rewritten in their places. -/
theorem keys_restoreWorkers {infos : List WorkerInfo}
    (h : ∀ info ∈ infos, info.workerId ∈ c.rows.keys) :
    (c.restoreWorkers infos now).rows.keys = c.rows.keys := by
  induction infos generalizing c with
  | nil => rfl
  | cons info infos ih =>
    rw [List.forall_mem_cons] at h
    have hkeys : (c.registerWorker (unverified info now) now).rows.keys = c.rows.keys := by
      cases hv : validateWorkerId info.workerId with
      | error e => rw [registerWorker_unverified_error c now hv]
      | ok wid =>
        obtain ⟨old, hold⟩ := Dict.mem_keys.1 h.1
        rw [(registerWorker_unverified c now hv).2.2, Dict.keys_set_of_some _ hold]
    have hrest : ∀ i ∈ infos,
        i.workerId ∈ (c.registerWorker (unverified info now) now).rows.keys := by
      rw [hkeys]
      exact h.2
    exact (ih hrest).trans hkeys

/-- **The rows that a restart leaves.** -/
theorem rows_restoreWorkers {rows : Dict String WorkerInfo} (h : Readable rows) (now : ℚ) :
    (restoreWorkers { rows } rows.values now).rows = rows.mapValues fun _ => storedCopy now := by
  have hstep : ∀ (c : PersistedRegistry) (info : WorkerInfo) (k : String), True →
      (c.registerWorker (unverified info now) now).rows.get? k = if k = info.workerId then
        (validateWorkerId info.workerId).toOption.elim (c.rows.get? k)
          fun _ => some (storedCopy now info) else c.rows.get? k := by
    intro c info k _
    cases hv : validateWorkerId info.workerId with
    | error e =>
      rw [registerWorker_unverified_error c now hv]
      exact (ite_self _).symm
    | ok wid =>
      rw [(registerWorker_unverified c now hv).2.2, Dict.get?_set]
      rfl
  refine Dict.ext_keys ?_ fun k => ?_
  · rw [keys_restoreWorkers fun info hinfo =>
      Dict.mem_keys.2 ⟨info, (h.mem_values hinfo).1⟩, Dict.keys_mapValues]
  · rw [Dict.get?_mapValues]
    cases hk : rows.get? k with
    | none =>
      have hnot : k ∉ rows.values.map (·.workerId) := by
        rw [h.map_values]
        exact Dict.not_mem_keys.2 hk
      exact (foldl_view_of_notMem (·.workerId) (fun (c : PersistedRegistry) k => c.rows.get? k)
        (fun info v => (validateWorkerId info.workerId).toOption.elim v
          fun _ => some (storedCopy now info)) _ (fun _ _ _ => trivial) hstep trivial hnot).trans hk
    | some info =>
      obtain ⟨rfl, wid, hwid⟩ := h k info hk
      have hnodup : (rows.values.map (·.workerId)).Nodup := h.map_values ▸ rows.nodup
      refine (foldl_view_of_mem (·.workerId) (fun (c : PersistedRegistry) k => c.rows.get? k)
        (fun info v => (validateWorkerId info.workerId).toOption.elim v
          fun _ => some (storedCopy now info)) _ (fun _ _ _ => trivial) hstep trivial hnodup
          (Dict.mem_values.2 ⟨_, hk⟩)).trans ?_
      rw [hwid]
      rfl

theorem Readable.restored {rows : Dict String WorkerInfo} (h : Readable rows) (now : ℚ) :
    Readable (rows.mapValues fun _ => storedCopy now) := by
  intro k info hk
  rw [Dict.get?_mapValues] at hk
  obtain ⟨old, hold, rfl⟩ := Option.map_eq_some_iff.1 hk
  exact h k old hold

/-! ## Restoring twice -/

/-- **A copy of a copy.** -/
theorem alike_storedCopy (info : WorkerInfo) (now now' : ℚ) :
    (storedCopy now' (storedCopy now info)).Alike (storedCopy now info) := by
  refine ⟨rfl, fun h => ?_⟩
  have hmem : ∀ (info : WorkerInfo) (now : ℚ), h ∈ (storedCopy now info).inventoryHashes ↔
      NormalizesTo info.inventoryHashes.toList h := by
    intro info now
    unfold storedCopy
    rw [mem_foldl_registerHash]
    exact or_iff_right (PySet.notMem_empty h)
  have hdigest : ∀ h ∈ (storedCopy now info).inventoryHashes.toList, IsDigest h := by
    intro h hh
    unfold storedCopy at hh
    obtain ⟨rawH, -, hraw⟩ :=
      ((mem_foldl_registerHash _ _ _ _).1 hh).resolve_left (PySet.notMem_empty h)
    exact validateSha256Hex_isDigest hraw
  rw [hmem, normalizesTo_digests hdigest]
  exact PySet.mem_toList

theorem alikeRecords_registerWorker {c' : PersistedRegistry}
    (h : AlikeRecords c'.registry c.registry) (info : WorkerInfo) (now now' : ℚ) :
    AlikeRecords (c'.registerWorker (unverified (storedCopy now info) now') now').registry
      (c.registerWorker (unverified info now) now).registry := by
  cases hv : validateWorkerId info.workerId with
  | error e =>
    have hv' : validateWorkerId (storedCopy now info).workerId = .error e := hv
    rw [registerWorker_unverified_error c now hv, registerWorker_unverified_error c' now' hv']
    exact h
  | ok wid =>
    have hv' : validateWorkerId (storedCopy now info).workerId = .ok wid := hv
    obtain ⟨hworkers, hhealth, -⟩ := registerWorker_unverified c now hv
    obtain ⟨hworkers', hhealth', -⟩ := registerWorker_unverified c' now' hv'
    refine ⟨fun k => ?_, fun k => ?_⟩
    · rw [hworkers, hworkers', Dict.get?_set, Dict.get?_set]
      split_ifs
      · exact .some (alike_storedCopy info now now')
      · exact h.worker k
    · rw [hhealth, hhealth']
      exact h.registerHealth wid k

/-- **Restoring the rows that a restart left gives the same registry.** -/
theorem alike_restoreWorkers (rows : Dict String WorkerInfo) (now now' : ℚ) :
    let rows' := rows.mapValues fun _ => storedCopy now
    Alike (restoreWorkers { rows := rows' } rows'.values now').registry
      (restoreWorkers { rows } rows.values now).registry := by
  intro rows'
  have hvalues : rows'.values = rows.values.map (storedCopy now) := by
    unfold rows' Dict.values Dict.mapValues
    rw [List.map_map, List.map_map]
    rfl
  have key : ∀ (infos : List WorkerInfo) (c c' : PersistedRegistry),
      AlikeRecords c'.registry c.registry →
      AlikeRecords (c'.restoreWorkers (infos.map (storedCopy now)) now').registry
        (c.restoreWorkers infos now).registry := by
    intro infos
    induction infos with
    | nil => exact fun _ _ h => h
    | cons info infos ih => exact fun c c' h => ih _ _ (alikeRecords_registerWorker h info now now')
  rw [hvalues]
  refine (key rows.values _ _ ⟨fun _ => .none, fun _ => .none⟩).alike ?_ ?_
  · exact indexInv_restoreWorkers _ .init
  · exact indexInv_restoreWorkers _ .init

end PersistedRegistry

end Aidars
