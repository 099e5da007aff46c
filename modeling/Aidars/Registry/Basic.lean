import Aidars.Foundations.InvertedIndex
import Aidars.Models.Validation
import Aidars.Models.Worker
import Mathlib.Algebra.Order.Ring.Unbundled.Rat

/-!
# The worker registry

`WorkerRegistry` is the coordinator's control-plane state: the registered workers, the inverted
index from a hash to the workers that hold it, the hashes of each worker, and the health records,
which outlive the registration. The operations below follow the registry's critical sections one
by one; clock readings are arguments. The write-through to the state store that follows each
section is not part of this state.
-/

namespace Aidars

/-- Health classification of a worker's penalty. -/
inductive WorkerHealthStatus
  | healthy
  | degraded
  | suspect
  | dead
  deriving DecidableEq, Repr

/-- Health and penalty metrics of a worker. -/
structure WorkerHealthRecord where
  workerId : String
  healthStatus : WorkerHealthStatus := .healthy
  penaltyScore : ℚ := 0
  consecutiveFailures : ℕ := 0
  totalTransfersServed : ℕ := 0
  totalBytesServed : ℕ := 0
  totalCorruptions : ℕ := 0
  lastSuccessUtc : ℚ := 0
  lastFailureUtc : ℚ := 0
  lastDecayUtc : ℚ := 0
  deriving DecidableEq

/-- The registry's parameters. `decayFactor` is the exponential half-life factor of an elapsed
time, and `round4` the rounding of a score to four decimals. -/
structure RegistryConfig where
  heartbeatTimeout : ℚ := 15
  degradedThreshold : ℚ := 3
  suspectThreshold : ℚ := 10
  decayFactor : ℚ → ℚ
  round4 : ℚ → ℚ

/-- The state of the registry. -/
structure WorkerRegistry where
  workers : Dict String WorkerInfo := ∅
  hashIndex : Dict String (PySet String) := ∅
  workerHashes : Dict String (PySet String) := ∅
  healthRecords : Dict String WorkerHealthRecord := ∅
  deriving DecidableEq

namespace WorkerRegistry

variable (cfg : RegistryConfig)

/-! ## The inverted index -/

/-- The hash set of a worker, empty when it has none. -/
def hashesOf (r : WorkerRegistry) (wid : String) : PySet String := (r.workerHashes.get? wid).getD ∅

/-- Prune a worker from the index and drop its hash set. -/
def removeWorkerFromIndex (r : WorkerRegistry) (wid : String) : WorkerRegistry :=
  { r with
    workerHashes := r.workerHashes.erase wid
    hashIndex := InvertedIndex.discardAll r.hashIndex wid (hashesOf r wid).toList }

/-- What a loop over hashes carries: the worker's hash set, the index, and the number of changes. -/
structure HashLoop where
  held : PySet String
  index : Dict String (PySet String)
  count : ℕ := 0

/-- One turn of the loop of a registration: an invalid hash is skipped. -/
def registerHash (wid : String) (acc : HashLoop) (rawH : String) : HashLoop :=
  match validateSha256Hex rawH with
  | .ok normH =>
    { acc with held := acc.held.insert normH, index := InvertedIndex.add acc.index wid normH }
  | .error _ => acc

/-- One turn of the loop that adds hashes: skip an invalid hash or one already there. -/
def addHash (wid : String) (acc : HashLoop) (rawH : String) : HashLoop :=
  match validateSha256Hex rawH with
  | .ok normH =>
    if normH ∈ acc.held then acc
    else ⟨acc.held.insert normH, InvertedIndex.add acc.index wid normH, acc.count + 1⟩
  | .error _ => acc

/-- One turn of the loop that removes hashes: skip an invalid hash or one that is not there. -/
def removeHash (wid : String) (acc : HashLoop) (rawH : String) : HashLoop :=
  match validateSha256Hex rawH with
  | .ok normH =>
    if normH ∈ acc.held then
      ⟨acc.held.erase normH, InvertedIndex.discard acc.index wid normH, acc.count + 1⟩
    else acc
  | .error _ => acc

/-- Give a worker record a copy of a hash set. -/
def setInventory (r : WorkerRegistry) (wid : String) (hashes : PySet String) :
    Dict String WorkerInfo :=
  r.workers.modify wid fun w => { w with inventoryHashes := hashes }

/-- `_add_worker_hashes_locked`, with the number of newly indexed hashes. -/
def addWorkerHashes (r : WorkerRegistry) (wid : String) (hashes : List String) :
    WorkerRegistry × ℕ :=
  match r.workers.get? wid with
  | none => (r, 0)
  | some _ =>
    let acc := hashes.foldl (addHash wid) ⟨hashesOf r wid, r.hashIndex, 0⟩
    ({ r with
        hashIndex := acc.index
        workerHashes := r.workerHashes.set wid acc.held
        workers := setInventory r wid acc.held }, acc.count)

/-- `_remove_worker_hashes_locked`, with the number of removed hashes. -/
def removeWorkerHashes (r : WorkerRegistry) (wid : String) (hashes : List String) :
    WorkerRegistry × ℕ :=
  match r.workers.get? wid with
  | none => (r, 0)
  | some _ =>
    let acc := hashes.foldl (removeHash wid) ⟨hashesOf r wid, r.hashIndex, 0⟩
    ({ r with
        hashIndex := acc.index
        workerHashes := r.workerHashes.modify wid fun _ => acc.held
        workers := setInventory r wid acc.held }, acc.count)

/-- The valid hashes of a list, normalised. -/
def normalizedHashes (hashes : List String) : PySet String :=
  PySet.ofList (hashes.filterMap fun h => (validateSha256Hex h).toOption)

/-- Bring a worker's inventory to a target set, with the numbers of added and removed hashes. -/
def syncWorkerInventory (r : WorkerRegistry) (wid : String) (inventory : List String) :
    WorkerRegistry × ℕ × ℕ :=
  match r.workers.get? wid with
  | none => (r, 0, 0)
  | some _ =>
    let target := normalizedHashes inventory
    let current := hashesOf r wid
    let (r, added) := addWorkerHashes r wid (target.diff current).toList
    let (r, removed) := removeWorkerHashes r wid (current.diff target).toList
    (r, added, removed)

/-! ## Registration -/

/-- The health records after a registration: a fresh one for a new worker, a revived one for a
dead worker. -/
def registerHealth (r : WorkerRegistry) (wid : String) (now : ℚ) : Dict String WorkerHealthRecord :=
  match r.healthRecords.get? wid with
  | none => r.healthRecords.set wid { workerId := wid, lastDecayUtc := now }
  | some record =>
    if record.healthStatus = .dead then
      r.healthRecords.set wid { record with healthStatus := .healthy, consecutiveFailures := 0 }
    else r.healthRecords

/-- Register or update a worker, replacing its inventory; returns the stored record. -/
def registerWorker (r : WorkerRegistry) (info : WorkerInfo) (now : ℚ) :
    Except ValueError (WorkerRegistry × WorkerInfo) :=
  match validateWorkerId info.workerId with
  | .error e => .error e
  | .ok wid =>
    let r := if (r.workerHashes.get? wid).isSome then removeWorkerFromIndex r wid else r
    let acc := info.inventoryHashes.toList.foldl (registerHash wid) ⟨∅, r.hashIndex, 0⟩
    let copy := { info with
      lastHeartbeatUtc := if info.lastHeartbeatUtc.le 0 then now else info.lastHeartbeatUtc
      inventoryHashes := acc.held }
    .ok ({ workers := r.workers.set wid copy
           hashIndex := acc.index
           workerHashes := r.workerHashes.set wid acc.held
           healthRecords := registerHealth r wid now }, copy)

/-- `_unregister_worker_locked`: the health record stays, as that of a dead worker. -/
def unregisterWorker (r : WorkerRegistry) (wid : String) : WorkerRegistry × Option WorkerInfo :=
  match r.workers.get? wid with
  | none => (r, none)
  | some w =>
    let r := removeWorkerFromIndex { r with workers := r.workers.erase wid } wid
    let healthRecords := r.healthRecords.modify wid fun h => { h with healthStatus := .dead }
    ({ r with healthRecords }, some w)

/-- Reset the registry. -/
def clear (_ : WorkerRegistry) : WorkerRegistry := {}

/-- Update a worker's status. -/
def setWorkerStatus (r : WorkerRegistry) (wid : String) (status : WorkerStatus) : WorkerRegistry :=
  { r with workers := r.workers.modify wid fun w => { w with status } }

/-! ## Heartbeats and eviction -/

/-- The telemetry snapshot stored for a heartbeat: worker-provided readings under
coordinator-owned identity, status, inventory and receipt time. -/
def stampProfile (w : WorkerInfo) (now : ℚ) (p : WorkerResourceProfile) : WorkerResourceProfile :=
  { p with
    workerId := w.workerId
    endpointUrl := w.endpointUrl
    ipAddress := w.ipAddress
    status := w.status
    localCachedHashes := w.inventoryHashes
    timestampUtc := some now
    canExecuteWorkloads := w.canExecuteWorkloads }

/-- A heartbeat was received. -/
def touch (now : ℚ) (w : WorkerInfo) : WorkerInfo :=
  { w with lastHeartbeatUtc := now, consecutiveHeartbeatFailures := 0 }

/-- The load readings of a heartbeat. -/
def applyMetrics (p : HeartbeatPayload) (w : WorkerInfo) : WorkerInfo :=
  { w with
    lastMetrics := p.metrics <|> w.lastMetrics
    usedBytes := p.usedBytes.getD w.usedBytes
    activeTransfers := p.activeTransfers }

/-- The inventory deltas of a heartbeat: additions first, then removals. -/
def applyDeltas (r : WorkerRegistry) (wid : String) (p : HeartbeatPayload) : WorkerRegistry :=
  let r := if p.inventoryDeltaAdded = ∅ then r
    else (addWorkerHashes r wid p.inventoryDeltaAdded.toList).1
  if p.inventoryDeltaRemoved = ∅ then r
  else (removeWorkerHashes r wid p.inventoryDeltaRemoved.toList).1

/-- The telemetry of a heartbeat; telemetry without a timestamp is dropped. -/
def applyTelemetry (p : HeartbeatPayload) (now : ℚ) (w : WorkerInfo) : WorkerInfo :=
  { w with resourceProfile :=
      (p.resourceProfile.filter (·.timestampUtc.isSome)).map (stampProfile w now) }

/-- The part of a heartbeat that reads the payload. -/
def applyPayload (r : WorkerRegistry) (wid : String) (now : ℚ) (p : HeartbeatPayload) :
    WorkerRegistry :=
  let r := applyDeltas { r with workers := r.workers.modify wid (applyMetrics p) } wid p
  { r with workers := r.workers.modify wid (applyTelemetry p now) }

/-- A heartbeat promotes an offline worker to active, and its telemetry with it. -/
def reviveStatus (w : WorkerInfo) : WorkerInfo :=
  let status := if w.status = .offline then .active else w.status
  { w with status, resourceProfile := w.resourceProfile.map fun p => { p with status } }

/-- A heartbeat revives a dead health record. -/
def reviveHealth (h : WorkerHealthRecord) : WorkerHealthRecord :=
  { h with healthStatus := if h.healthStatus = .dead then .healthy else h.healthStatus }

/-- Record a heartbeat; the answer says whether the worker is registered. -/
def recordHeartbeat (r : WorkerRegistry) (wid : String) (payload : Option HeartbeatPayload)
    (now : ℚ) : WorkerRegistry × Bool :=
  match r.workers.get? wid with
  | none => (r, false)
  | some _ =>
    let r := { r with workers := r.workers.modify wid (touch now) }
    let r := match payload with
      | some p => applyPayload r wid now p
      | none => r
    ({ r with
        healthRecords := r.healthRecords.modify wid reviveHealth
        workers := r.workers.modify wid reviveStatus }, true)

/-- The workers whose heartbeat is older than the cutoff. -/
def expiredIds (r : WorkerRegistry) (cutoff : ℚ) : List String :=
  (r.workers.entries.filter fun e => e.2.lastHeartbeatUtc.lt cutoff).map Prod.fst

/-- One turn of the eviction loop: the evicted identifiers are collected. -/
def evictOne (acc : WorkerRegistry × List String) (wid : String) : WorkerRegistry × List String :=
  match unregisterWorker acc.1 wid with
  | (r, some _) => (r, acc.2 ++ [wid])
  | (r, none) => (r, acc.2)

/-- Unregister the workers whose heartbeat has expired; returns their identifiers. -/
def evictExpiredWorkers (r : WorkerRegistry) (timeoutSeconds : Option ℚ) (now : ℚ) :
    WorkerRegistry × List String :=
  (expiredIds r (now - timeoutSeconds.getD cfg.heartbeatTimeout)).foldl evictOne (r, [])

/-! ## Health and penalties -/

/-- Change a health record and, by the new record, the registered worker it belongs to. -/
def updateHealth (r : WorkerRegistry) (wid : String)
    (f : WorkerHealthRecord → WorkerHealthRecord)
    (g : WorkerHealthRecord → WorkerInfo → WorkerInfo) : WorkerRegistry :=
  match r.healthRecords.get? wid with
  | none => r
  | some record =>
    { r with
      healthRecords := r.healthRecords.set wid (f record)
      workers := r.workers.modify wid (g record) }

/-- The score after a success. -/
def successScore (h : WorkerHealthRecord) : ℚ := max 0 (h.penaltyScore - 1 / 2)

/-- A success at this score promotes a degraded record. -/
def successRecovers (h : WorkerHealthRecord) : Bool :=
  successScore h < cfg.degradedThreshold && h.healthStatus = .degraded

/-- Record a successful transfer. -/
def recordSuccess (r : WorkerRegistry) (wid : String) (bytesTransferred : ℤ) (now : ℚ) :
    WorkerRegistry :=
  updateHealth r wid
    (fun h => { h with
      totalTransfersServed := h.totalTransfersServed + 1
      totalBytesServed := h.totalBytesServed + (max 0 bytesTransferred).toNat
      consecutiveFailures := 0
      lastSuccessUtc := now
      penaltyScore := successScore h
      healthStatus := if successRecovers cfg h then .healthy else h.healthStatus })
    (fun h w => { w with
      penaltyScore := successScore h
      status := if successRecovers cfg h then .active else w.status })

/-- The score after a failure. -/
def failureScore (penalty : ℚ) (h : WorkerHealthRecord) : ℚ := h.penaltyScore + max 0 penalty

/-- Record a failure, with its penalty points. -/
def recordFailure (r : WorkerRegistry) (wid : String) (penalty : ℚ) (now : ℚ) : WorkerRegistry :=
  updateHealth r wid
    (fun h => { h with
      consecutiveFailures := h.consecutiveFailures + 1
      penaltyScore := failureScore penalty h
      lastFailureUtc := now
      healthStatus :=
        if cfg.suspectThreshold ≤ failureScore penalty h then .suspect
        else if cfg.degradedThreshold ≤ failureScore penalty h then .degraded
        else h.healthStatus })
    (fun h w => { w with
      penaltyScore := failureScore penalty h
      status :=
        if cfg.suspectThreshold ≤ failureScore penalty h then .unhealthy
        else if cfg.degradedThreshold ≤ failureScore penalty h then .degraded
        else w.status })

/-- Record a corrupt transfer: a failure, and the hash leaves the worker's inventory. -/
def recordCorruption (r : WorkerRegistry) (wid sha256Hex : String) (penalty : ℚ) (now : ℚ) :
    WorkerRegistry :=
  match r.healthRecords.get? wid with
  | none => r
  | some record =>
    let r := { r with healthRecords :=
      r.healthRecords.set wid { record with totalCorruptions := record.totalCorruptions + 1 } }
    let r := recordFailure cfg r wid penalty now
    match validateSha256Hex sha256Hex with
    | .ok normH => (removeWorkerHashes r wid [normH]).1
    | .error _ => r

/-- The score after the decay of the time since the last decay. -/
def decayScore (now : ℚ) (h : WorkerHealthRecord) : ℚ :=
  h.penaltyScore * cfg.decayFactor (now - h.lastDecayUtc)

/-- The decay promotes a degraded record to a healthy one. -/
def decayRecovers (now : ℚ) (h : WorkerHealthRecord) : Bool :=
  decayScore cfg now h < cfg.degradedThreshold && h.healthStatus = .degraded

/-- The decay promotes a suspect record to a degraded one. -/
def decayImproves (now : ℚ) (h : WorkerHealthRecord) : Bool :=
  decayScore cfg now h < cfg.suspectThreshold && h.healthStatus = .suspect

/-- A record after the decay pass, which skips it when no time has passed. -/
def decayRecord (now : ℚ) (h : WorkerHealthRecord) : WorkerHealthRecord :=
  if now - h.lastDecayUtc ≤ 0 then h
  else { h with
    penaltyScore := decayScore cfg now h
    lastDecayUtc := now
    healthStatus :=
      if decayRecovers cfg now h then .healthy
      else if decayImproves cfg now h then .degraded
      else h.healthStatus }

/-- A registered worker after the decay of its record. -/
def decayWorker (now : ℚ) (h : WorkerHealthRecord) (w : WorkerInfo) : WorkerInfo :=
  if now - h.lastDecayUtc ≤ 0 then w
  else { w with
    penaltyScore := cfg.round4 (decayScore cfg now h)
    status :=
      if decayRecovers cfg now h then .active
      else if decayImproves cfg now h then .degraded
      else w.status }

/-- The turn of the decay pass at one record. -/
def decayOne (now : ℚ) (r : WorkerRegistry) (wid : String) : WorkerRegistry :=
  updateHealth r wid (decayRecord cfg now) (decayWorker cfg now)

/-- Apply half-life decay to every penalty score. -/
def decayPenalties (r : WorkerRegistry) (now : ℚ) : WorkerRegistry :=
  r.healthRecords.keys.foldl (decayOne cfg now) r

/-! ## Queries -/

/-- The holders of a hash. -/
def getWorkersForHash (r : WorkerRegistry) (sha256Hex : String) : PySet String :=
  match validateSha256Hex sha256Hex with
  | .ok normH => (r.hashIndex.get? normH).getD ∅
  | .error _ => ∅

/-- The registered workers; with `activeOnly`, without the offline, suspect and dead ones. -/
def listWorkers (r : WorkerRegistry) (activeOnly : Bool) : List WorkerInfo :=
  let excluded := fun (e : String × WorkerInfo) =>
    e.2.status = .offline || ((r.healthRecords.get? e.1).any fun h =>
      h.healthStatus = .suspect || h.healthStatus = .dead)
  (r.workers.entries.filter fun e => !(activeOnly && excluded e)).map Prod.snd

/-! ## Operations -/

/-- The mutating calls of the registry, with the clock reading of each. -/
inductive Op
  | registerWorker (info : WorkerInfo) (now : ℚ)
  | unregisterWorker (wid : String)
  | addWorkerHashes (wid : String) (hashes : List String)
  | removeWorkerHashes (wid : String) (hashes : List String)
  | syncWorkerInventory (wid : String) (inventory : List String)
  | recordHeartbeat (wid : String) (payload : Option HeartbeatPayload) (now : ℚ)
  | evictExpiredWorkers (timeoutSeconds : Option ℚ) (now : ℚ)
  | recordSuccess (wid : String) (bytesTransferred : ℤ) (now : ℚ)
  | recordFailure (wid : String) (penalty : ℚ) (now : ℚ)
  | recordCorruption (wid sha256Hex : String) (penalty : ℚ) (now : ℚ)
  | decayPenalties (now : ℚ)
  | setWorkerStatus (wid : String) (status : WorkerStatus)
  | clear

/-- The effect of a call; a registration that raises changes nothing. -/
def apply (r : WorkerRegistry) : Op → WorkerRegistry
  | .registerWorker info now =>
    match r.registerWorker info now with
    | .ok (r', _) => r'
    | .error _ => r
  | .unregisterWorker wid => (r.unregisterWorker wid).1
  | .addWorkerHashes wid hashes => (r.addWorkerHashes wid hashes).1
  | .removeWorkerHashes wid hashes => (r.removeWorkerHashes wid hashes).1
  | .syncWorkerInventory wid inventory => (r.syncWorkerInventory wid inventory).1
  | .recordHeartbeat wid payload now => (r.recordHeartbeat wid payload now).1
  | .evictExpiredWorkers timeoutSeconds now => (evictExpiredWorkers cfg r timeoutSeconds now).1
  | .recordSuccess wid bytesTransferred now => recordSuccess cfg r wid bytesTransferred now
  | .recordFailure wid penalty now => recordFailure cfg r wid penalty now
  | .recordCorruption wid sha256Hex penalty now => recordCorruption cfg r wid sha256Hex penalty now
  | .decayPenalties now => decayPenalties cfg r now
  | .setWorkerStatus wid status => r.setWorkerStatus wid status
  | .clear => r.clear

/-- The registry after a sequence of calls on a new one. -/
def run (ops : List Op) : WorkerRegistry := ops.foldl (apply cfg) {}

end WorkerRegistry

end Aidars
