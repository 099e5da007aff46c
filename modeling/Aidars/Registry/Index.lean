import Aidars.Registry.Basic

/-!
# The inverted index of the worker registry

Three structures of the registry hold the same facts: the inventory stored with each worker, the
hash set of each worker, and the inverted index. `IndexInv` states that they agree: the workers
and the hash sets have the same keys, the stored inventory is the hash set, the index is the
inverted index of the hash sets, and every held hash is a lowercase 64-digit hex string.

Every operation keeps `IndexInv`. The loops over hashes are handled one turn at a time: a turn
adds one pair to the index and to the hash set of its worker, removes one from both, or does
nothing (`LoopInv.registerHash`, `LoopInv.addHash`, `LoopInv.removeHash`).
-/

namespace Aidars.WorkerRegistry

open InvertedIndex

/-- The three copies of the inventory agree. -/
structure IndexInv (r : WorkerRegistry) : Prop where
  keys : ∀ w, (r.workers.get? w).isSome = (r.workerHashes.get? w).isSome
  inventory : ∀ w info, r.workers.get? w = some info → info.inventoryHashes = r.hashesOf w
  indexes : Indexes r.hashIndex fun w h => h ∈ r.hashesOf w
  digest : ∀ w h, h ∈ r.hashesOf w → IsDigest h

/-! ## The loops over hashes -/

/-- The invariant of a loop over the hashes of `wid`, the other workers holding `held`. -/
structure LoopInv (held : String → PySet String) (wid : String) (acc : HashLoop) : Prop where
  indexes : Indexes acc.index fun w h => h ∈ Function.update held wid acc.held w
  digest : ∀ h ∈ acc.held, IsDigest h

namespace LoopInv

variable {held : String → PySet String} {wid : String} {acc : HashLoop}

theorem insert (hl : LoopInv held wid acc) {h : String} (hd : IsDigest h) (n : ℕ) :
    LoopInv held wid ⟨acc.held.insert h, InvertedIndex.add acc.index wid h, n⟩ := by
  refine ⟨(hl.indexes.add wid h).congr fun w h' => ?_, fun h' hh => ?_⟩
  · by_cases hw : w = wid
    · subst hw
      simp
    · simp [hw]
  · rcases PySet.mem_insert.1 hh with rfl | hh
    · exact hd
    · exact hl.digest h' hh

theorem erase (hl : LoopInv held wid acc) (h : String) (n : ℕ) :
    LoopInv held wid ⟨acc.held.erase h, InvertedIndex.discard acc.index wid h, n⟩ := by
  refine ⟨(hl.indexes.discard wid h).congr fun w h' => ?_, fun h' hh => ?_⟩
  · by_cases hw : w = wid
    · subst hw
      simp [and_comm]
    · simp [hw]
  · exact hl.digest h' (PySet.mem_erase.1 hh).2

theorem registerHash (hl : LoopInv held wid acc) (rawH : String) :
    LoopInv held wid (registerHash wid acc rawH) := by
  unfold WorkerRegistry.registerHash
  split
  · exact hl.insert (validateSha256Hex_isDigest ‹_›) _
  · exact hl

theorem addHash (hl : LoopInv held wid acc) (rawH : String) :
    LoopInv held wid (addHash wid acc rawH) := by
  unfold WorkerRegistry.addHash
  split
  · split_ifs
    · exact hl
    · exact hl.insert (validateSha256Hex_isDigest ‹_›) _
  · exact hl

theorem removeHash (hl : LoopInv held wid acc) (rawH : String) :
    LoopInv held wid (removeHash wid acc rawH) := by
  unfold WorkerRegistry.removeHash
  split
  · split_ifs
    · exact hl.erase _ _
    · exact hl
  · exact hl

/-- A loop keeps what each of its turns keeps. -/
theorem foldl {turn : HashLoop → String → HashLoop}
    (hturn : ∀ acc h, LoopInv held wid acc → LoopInv held wid (turn acc h)) (hashes : List String)
    (hl : LoopInv held wid acc) : LoopInv held wid (hashes.foldl turn acc) := by
  induction hashes generalizing acc with
  | nil => exact hl
  | cons h hashes ih => exact ih (hturn acc h hl)

end LoopInv

namespace IndexInv

variable {r r' : WorkerRegistry} {wid : String}

theorem init : IndexInv {} where
  keys _ := rfl
  inventory _ _ h := by simp at h
  indexes := Indexes.empty.congr fun w h => by simp [hashesOf]
  digest w h hh := by simp [hashesOf] at hh

theorem loop (hr : IndexInv r) (wid : String) :
    LoopInv r.hashesOf wid ⟨r.hashesOf wid, r.hashIndex, 0⟩ where
  indexes := hr.indexes.congr fun w h => by simp
  digest := hr.digest wid

/-- A registry whose worker `wid` holds the result of a loop and whose others are as before. -/
theorem of_loop (hr : IndexInv r) {acc : HashLoop} (hl : LoopInv r.hashesOf wid acc)
    (hidx : r'.hashIndex = acc.index) (hof : r'.hashesOf = Function.update r.hashesOf wid acc.held)
    (hkeys : ∀ w, (r'.workers.get? w).isSome = (r'.workerHashes.get? w).isSome)
    (hself : ∀ info, r'.workers.get? wid = some info → info.inventoryHashes = acc.held)
    (hother : ∀ w ≠ wid, r'.workers.get? w = r.workers.get? w) : IndexInv r' := by
  refine ⟨hkeys, fun w info hw => ?_, ?_, fun w h hh => ?_⟩
  · by_cases hne : w = wid
    · subst hne
      rw [hof, Function.update_self, hself info hw]
    · rw [hof, Function.update_of_ne hne]
      exact hr.inventory w info (hother w hne ▸ hw)
  · rw [hidx, hof]
    exact hl.indexes
  · rw [hof] at hh
    by_cases hne : w = wid
    · subst hne
      rw [Function.update_self] at hh
      exact hl.digest h hh
    · rw [Function.update_of_ne hne] at hh
      exact hr.digest w h hh

theorem hashesOf_set {d : PySet String}
    (h : ∀ w, r'.workerHashes.get? w = if w = wid then some d else r.workerHashes.get? w) :
    r'.hashesOf = Function.update r.hashesOf wid d := by
  funext w
  by_cases hw : w = wid
  · subst hw
    simp [hashesOf, h]
  · simp [hashesOf, h, hw]

theorem modify_workers (hr : IndexInv r) (wid : String) {f : WorkerInfo → WorkerInfo}
    (hf : ∀ w, (f w).inventoryHashes = w.inventoryHashes)
    (health : Dict String WorkerHealthRecord) :
    IndexInv { r with workers := r.workers.modify wid f, healthRecords := health } := by
  refine ⟨fun w => ?_, fun w info hw => ?_, hr.indexes, hr.digest⟩
  · rw [← hr.keys w, Dict.get?_modify]
    split_ifs with he
    · rw [he, Option.isSome_map]
    · rfl
  · rw [Dict.get?_modify] at hw
    split_ifs at hw with he
    · obtain ⟨info₀, h₀, rfl⟩ := Option.map_eq_some_iff.1 hw
      rw [hf, he]
      exact hr.inventory wid info₀ h₀
    · exact hr.inventory w info hw

theorem set_health (hr : IndexInv r) (health : Dict String WorkerHealthRecord) :
    IndexInv { r with healthRecords := health } :=
  ⟨hr.keys, hr.inventory, hr.indexes, hr.digest⟩

theorem isSome_hashes (hr : IndexInv r) {info : WorkerInfo} (hw : r.workers.get? wid = some info) :
    (r.workerHashes.get? wid).isSome = true := by
  rw [← hr.keys wid, hw]
  rfl

theorem setInventory_get? (r : WorkerRegistry) (wid w : String) (d : PySet String) :
    (r.setInventory wid d).get? w = if w = wid then
      (r.workers.get? wid).map fun info => { info with inventoryHashes := d }
    else r.workers.get? w := by
  rw [setInventory, Dict.get?_modify]

theorem of_setInventory (hr : IndexInv r) {info : WorkerInfo} (hw : r.workers.get? wid = some info)
    {acc : HashLoop} (hl : LoopInv r.hashesOf wid acc) (hidx : r'.hashIndex = acc.index)
    (hheld : ∀ w, r'.workerHashes.get? w = if w = wid then some acc.held else r.workerHashes.get? w)
    (hworkers : r'.workers = r.setInventory wid acc.held) : IndexInv r' := by
  refine hr.of_loop hl hidx (hashesOf_set hheld) (fun w => ?_) (fun info' hi => ?_) fun w hne => ?_
  · rw [hworkers, setInventory_get?, hheld]
    split_ifs with he
    · simp [hw]
    · exact hr.keys w
  · rw [hworkers, setInventory_get?, if_pos rfl, hw] at hi
    obtain rfl := Option.some.inj hi
    rfl
  · rw [hworkers, setInventory_get?, if_neg hne]

theorem addWorkerHashes (hr : IndexInv r) (wid : String) (hashes : List String) :
    IndexInv (r.addWorkerHashes wid hashes).1 := by
  unfold WorkerRegistry.addWorkerHashes
  split
  · exact hr
  · rename_i info hw
    exact hr.of_setInventory hw (LoopInv.foldl (fun _ h hl => hl.addHash h) hashes (hr.loop wid))
      rfl (fun w => Dict.get?_set ..) rfl

theorem removeWorkerHashes (hr : IndexInv r) (wid : String) (hashes : List String) :
    IndexInv (r.removeWorkerHashes wid hashes).1 := by
  unfold WorkerRegistry.removeWorkerHashes
  split
  · exact hr
  · rename_i info hw
    refine hr.of_setInventory hw
      (LoopInv.foldl (fun _ h hl => hl.removeHash h) hashes (hr.loop wid)) rfl (fun w => ?_) rfl
    obtain ⟨d, hd⟩ := Option.isSome_iff_exists.1 (hr.isSome_hashes hw)
    rw [Dict.get?_modify, hd]
    rfl

theorem syncWorkerInventory (hr : IndexInv r) (wid : String) (inventory : List String) :
    IndexInv (r.syncWorkerInventory wid inventory).1 := by
  unfold WorkerRegistry.syncWorkerInventory
  split
  · exact hr
  · exact (hr.addWorkerHashes wid _).removeWorkerHashes wid _

/-! ## Registration and eviction -/

theorem loop_removeWorkerFromIndex (hr : IndexInv r) (wid : String) :
    LoopInv r.hashesOf wid ⟨∅, (r.removeWorkerFromIndex wid).hashIndex, 0⟩ := by
  refine ⟨(hr.indexes.discardAll wid _).congr fun w h => ?_, by simp⟩
  by_cases hw : w = wid
  · subst hw
    simp
  · simp [hw]

theorem registerWorker (hr : IndexInv r) {info copy : WorkerInfo} {now : ℚ}
    (h : r.registerWorker info now = .ok (r', copy)) : IndexInv r' := by
  unfold WorkerRegistry.registerWorker at h
  split at h
  · cases h
  · rename_i wid hwid
    obtain ⟨rfl, rfl⟩ := Prod.mk.inj (Except.ok.inj h)
    -- whether or not the worker was there, its own pairs have left the index
    have hstart : LoopInv r.hashesOf wid ⟨∅, (if (r.workerHashes.get? wid).isSome
        then r.removeWorkerFromIndex wid else r).hashIndex, 0⟩ := by
      split_ifs with hs
      · exact hr.loop_removeWorkerFromIndex wid
      · have := hr.loop wid
        rwa [hashesOf, Option.not_isSome_iff_eq_none.1 hs] at this
    have hheld : ∀ (d : PySet String) (w : String), (((if (r.workerHashes.get? wid).isSome
        then r.removeWorkerFromIndex wid else r).workerHashes.set wid d).get? w) =
          if w = wid then some d else r.workerHashes.get? w := by
      intro d w
      rw [Dict.get?_set]
      by_cases hw : w = wid
      · rw [if_pos hw, if_pos hw]
      · rw [if_neg hw, if_neg hw]
        split_ifs
        · simp [removeWorkerFromIndex, hw]
        · rfl
    have hworkers : (if (r.workerHashes.get? wid).isSome then r.removeWorkerFromIndex wid
        else r).workers = r.workers := by
      split_ifs <;> rfl
    refine hr.of_loop (LoopInv.foldl (fun _ h hl => hl.registerHash h) _ hstart) rfl
      (hashesOf_set (hheld _)) (fun w => ?_) (fun info' hi => ?_) fun w hne => ?_
    · simp only [hheld, hworkers, Dict.get?_set]
      by_cases hw : w = wid
      · rw [if_pos hw, if_pos hw]
        rfl
      · rw [if_neg hw, if_neg hw]
        exact hr.keys w
    · simp only [Dict.get?_set, if_true] at hi
      obtain rfl := Option.some.inj hi
      rfl
    · simp only [Dict.get?_set, hworkers, if_neg hne]

theorem unregisterWorker (hr : IndexInv r) (wid : String) :
    IndexInv (r.unregisterWorker wid).1 := by
  unfold WorkerRegistry.unregisterWorker
  split
  · exact hr
  · refine hr.of_loop (hr.loop_removeWorkerFromIndex wid) rfl ?_ (fun w => ?_) (fun info hi => ?_)
      fun w hne => ?_
    · funext w
      by_cases hw : w = wid
      · subst hw
        simp [hashesOf, removeWorkerFromIndex]
      · simp [hashesOf, removeWorkerFromIndex, hw]
    · simp only [removeWorkerFromIndex, Dict.get?_erase]
      split_ifs
      · rfl
      · exact hr.keys w
    · simp [removeWorkerFromIndex] at hi
    · simp [removeWorkerFromIndex, hne]

theorem evictExpiredWorkers (hr : IndexInv r) (cfg : RegistryConfig) (timeoutSeconds : Option ℚ)
    (now : ℚ) : IndexInv (evictExpiredWorkers cfg r timeoutSeconds now).1 := by
  have key : ∀ (ids : List String) (acc : WorkerRegistry × List String), IndexInv acc.1 →
      IndexInv (ids.foldl evictOne acc).1 := by
    intro ids
    induction ids with
    | nil => exact fun _ h => h
    | cons wid ids ih =>
      intro acc h
      refine ih _ ?_
      have := h.unregisterWorker wid
      unfold evictOne
      split <;> simp_all
  exact key _ _ hr

/-! ## Heartbeats and health -/

theorem applyDeltas (hr : IndexInv r) (wid : String) (p : HeartbeatPayload) :
    IndexInv (r.applyDeltas wid p) := by
  unfold WorkerRegistry.applyDeltas
  dsimp only
  split_ifs
  · exact hr
  · exact hr.addWorkerHashes wid _
  · exact hr.removeWorkerHashes wid _
  · exact (hr.addWorkerHashes wid _).removeWorkerHashes wid _

theorem applyPayload (hr : IndexInv r) (wid : String) (now : ℚ) (p : HeartbeatPayload) :
    IndexInv (r.applyPayload wid now p) := by
  have h₀ := hr.modify_workers wid (f := applyMetrics p) (fun _ => rfl) r.healthRecords
  exact (h₀.applyDeltas wid p).modify_workers wid (f := applyTelemetry p now) (fun _ => rfl) _

theorem revive (hr : IndexInv r) (wid : String) :
    IndexInv { r with
      workers := r.workers.modify wid reviveStatus
      healthRecords := r.healthRecords.modify wid reviveHealth } :=
  hr.modify_workers wid (f := reviveStatus) (fun _ => rfl) _

theorem recordHeartbeat (hr : IndexInv r) (wid : String) (payload : Option HeartbeatPayload)
    (now : ℚ) : IndexInv (r.recordHeartbeat wid payload now).1 := by
  unfold WorkerRegistry.recordHeartbeat
  split
  · exact hr
  · have h₀ := hr.modify_workers wid (f := touch now) (fun _ => rfl) r.healthRecords
    cases payload with
    | none => exact h₀.revive wid
    | some p => exact (h₀.applyPayload wid now p).revive wid

theorem updateHealth (hr : IndexInv r) (wid : String)
    {f : WorkerHealthRecord → WorkerHealthRecord} {g : WorkerHealthRecord → WorkerInfo → WorkerInfo}
    (hg : ∀ h w, (g h w).inventoryHashes = w.inventoryHashes) :
      IndexInv (r.updateHealth wid f g) := by
  unfold WorkerRegistry.updateHealth
  split
  · exact hr
  · exact hr.modify_workers wid (hg _) _

theorem recordFailure (hr : IndexInv r) (cfg : RegistryConfig) (wid : String) (penalty now : ℚ) :
    IndexInv (recordFailure cfg r wid penalty now) :=
  hr.updateHealth wid fun _ _ => rfl

theorem recordCorruption (hr : IndexInv r) (cfg : RegistryConfig) (wid sha256Hex : String)
    (penalty now : ℚ) : IndexInv (recordCorruption cfg r wid sha256Hex penalty now) := by
  unfold WorkerRegistry.recordCorruption
  split
  · exact hr
  · rename_i record _
    have h₀ := (hr.set_health (r.healthRecords.set wid { record with
      totalCorruptions := record.totalCorruptions + 1 })).recordFailure cfg wid penalty now
    simp only
    split
    · exact h₀.removeWorkerHashes wid _
    · exact h₀

theorem decayPenalties (hr : IndexInv r) (cfg : RegistryConfig) (now : ℚ) :
    IndexInv (decayPenalties cfg r now) := by
  unfold WorkerRegistry.decayPenalties
  induction r.healthRecords.keys generalizing r with
  | nil => exact hr
  | cons wid ids ih =>
    refine ih (hr.updateHealth wid fun h w => ?_)
    unfold decayWorker
    split_ifs <;> rfl

/-- **Every operation keeps the three copies of the inventory in agreement.** -/
theorem apply (hr : IndexInv r) (cfg : RegistryConfig) (op : Op) : IndexInv (r.apply cfg op) := by
  cases op with
  | registerWorker info now =>
    unfold WorkerRegistry.apply
    simp only
    split
    · exact hr.registerWorker ‹_›
    · exact hr
  | unregisterWorker wid => exact hr.unregisterWorker wid
  | addWorkerHashes wid hashes => exact hr.addWorkerHashes wid hashes
  | removeWorkerHashes wid hashes => exact hr.removeWorkerHashes wid hashes
  | syncWorkerInventory wid inventory => exact hr.syncWorkerInventory wid inventory
  | recordHeartbeat wid payload now => exact hr.recordHeartbeat wid payload now
  | evictExpiredWorkers timeoutSeconds now => exact hr.evictExpiredWorkers cfg timeoutSeconds now
  | recordSuccess wid bytesTransferred now => exact hr.updateHealth wid fun _ _ => rfl
  | recordFailure wid penalty now => exact hr.recordFailure cfg wid penalty now
  | recordCorruption wid sha256Hex penalty now =>
    exact hr.recordCorruption cfg wid sha256Hex penalty now
  | decayPenalties now => exact hr.decayPenalties cfg now
  | setWorkerStatus wid status =>
    exact hr.modify_workers wid (f := fun w => { w with status }) (fun _ => rfl) _
  | clear => exact init

end IndexInv

/-- The invariant holds after every sequence of calls. -/
theorem indexInv_run (cfg : RegistryConfig) (ops : List Op) : IndexInv (run cfg ops) := by
  have key : ∀ (ops : List Op) (r : WorkerRegistry), IndexInv r →
      IndexInv (ops.foldl (apply cfg) r) := by
    intro ops
    induction ops with
    | nil => exact fun _ h => h
    | cons op ops ih => exact fun r h => ih _ (h.apply cfg op)
  exact key ops {} IndexInv.init

/-- **The inverted index invariant.** After every sequence of calls with arbitrary arguments: the
registered workers are those with a hash set; a worker is listed under a hash iff the hash is in
its set; the inventory stored with a worker is its hash set; no listed set is empty; and every
indexed hash is a lowercase 64-digit hex string. -/
theorem registry_index_agrees (cfg : RegistryConfig) (ops : List Op) :
    let r := run cfg ops
    (∀ w, w ∈ r.workers.keys ↔ w ∈ r.workerHashes.keys) ∧
    (∀ h w, w ∈ (r.hashIndex.get? h).getD ∅ ↔ h ∈ (r.workerHashes.get? w).getD ∅) ∧
    (∀ w info, r.workers.get? w = some info → r.workerHashes.get? w = some info.inventoryHashes) ∧
    (∀ h ws, r.hashIndex.get? h = some ws → ws ≠ ∅) ∧
    (∀ h ∈ r.hashIndex.keys, IsDigest h) := by
  intro r
  have hr : IndexInv r := indexInv_run cfg ops
  refine ⟨fun w => ?_, hr.indexes.mem_holders, fun w info hw => ?_, hr.indexes.ne_empty,
    fun h hh => ?_⟩
  · simp only [Dict.mem_keys, ← Option.isSome_iff_exists, hr.keys w]
  · obtain ⟨d, hd⟩ := Option.isSome_iff_exists.1 (hr.isSome_hashes hw)
    have := hr.inventory w info hw
    rw [hashesOf, hd, Option.getD_some] at this
    rw [hd, this]
  · obtain ⟨ws, hws⟩ := Dict.mem_keys.1 hh
    obtain ⟨w, hw⟩ := hr.indexes.exists_holder hws
    exact hr.digest w h hw

end Aidars.WorkerRegistry
