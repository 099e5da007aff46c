import Aidars.Foundations.Collections
import Aidars.Foundations.Json

/-!
# Worker records and heartbeat messages

The coordinator's view of a worker: `WorkerInfo` with its latest hardware telemetry
(`WorkerResourceProfile`), and the `HeartbeatPayload` that refreshes both. Times, penalties,
utilisations and costs are exact rationals, but the time of the last heartbeat, which comes with a
registration, is any float. Fields that no modelled function reads or writes (descriptive capability
flags, round-trip estimates) are left out.
-/

namespace Aidars

/-- Lifecycle status of a worker node. -/
inductive WorkerStatus
  | active
  | degraded
  | unhealthy
  | draining
  | offline
  deriving DecidableEq, Repr

/-- Utilisation metrics reported with a heartbeat. -/
structure WorkerMetrics where
  activeTransfers : ℕ := 0
  cpuPercent : ℚ := 0
  ramPercent : ℚ := 0
  usedBytes : ℕ := 0
  availableBytes : ℕ := 0
  deriving DecidableEq

/-- Compute and hardware state advertised by a worker. -/
structure WorkerResourceProfile where
  workerId : String
  endpointUrl : String
  ipAddress : String
  cpuCoresTotal : ℕ
  cpuUtilizationPercent : ℚ
  ramTotalBytes : ℕ
  ramAvailableBytes : ℕ
  gpuAvailable : Bool := false
  gpuDeviceName : Option String := none
  gpuVendor : Option String := none
  gpuModel : Option String := none
  gpuComputeCapability : Option String := none
  gpuDriverVersion : Option String := none
  vramTotalBytes : ℕ := 0
  vramAvailableBytes : ℕ := 0
  activeWorkloadCount : ℕ := 0
  maxConcurrentWorkloads : ℕ := 10
  status : WorkerStatus := .active
  localCachedHashes : PySet String := ∅
  costPerHour : ℚ := 0
  timestampUtc : Option ℚ := none
  canExecuteWorkloads : Bool := true
  deriving DecidableEq

/-- Full node state kept in the worker registry. `capabilities` are the names declared under the
`extra` capability map, the only capability data that placement reads. -/
structure WorkerInfo where
  workerId : String
  endpointUrl : String
  ipAddress : String
  port : ℕ
  hostname : Option String := none
  status : WorkerStatus := .active
  capacityBytes : ℕ := 0
  usedBytes : ℕ := 0
  capabilities : List String := []
  inventoryHashes : PySet String := ∅
  lastHeartbeatUtc : PyFloat
  activeTransfers : ℕ := 0
  consecutiveHeartbeatFailures : ℕ := 0
  penaltyScore : ℚ := 0
  registeredAtUtc : ℚ := 0
  lastMetrics : Option WorkerMetrics := none
  resourceProfile : Option WorkerResourceProfile := none
  tags : Dict String String := ∅
  canExecuteWorkloads : Bool := true
  deriving DecidableEq

/-- The worker may serve: active or merely degraded. -/
def WorkerInfo.isHealthy (w : WorkerInfo) : Bool :=
  w.status = .active || w.status = .degraded

/-- Periodic liveness and metric update sent by a worker. -/
structure HeartbeatPayload where
  workerId : String
  timestampUtc : ℚ
  metrics : Option WorkerMetrics := none
  resourceProfile : Option WorkerResourceProfile := none
  activeTransfers : ℕ := 0
  usedBytes : Option ℕ := none
  inventoryDeltaAdded : PySet String := ∅
  inventoryDeltaRemoved : PySet String := ∅
  deriving DecidableEq

end Aidars
