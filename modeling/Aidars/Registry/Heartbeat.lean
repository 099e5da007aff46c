import Aidars.Foundations.Run
import Aidars.Registry.Health
import Aidars.Registry.Index

/-!
# The inventory protocol of heartbeats

A worker reports its inventory to the coordinator as deltas. Each heartbeat carries the difference
between the content-addressed store and the inventory that was last acknowledged, and the
acknowledged inventory moves forward only when a response arrives. `Session` is one worker with
its coordinator: the store, the acknowledged inventory, the heartbeat in flight, and the
coordinator's registry. Stores change at any time, and each request and each response can be lost.

A heartbeat whose response was lost has still been recorded, so the coordinator differs from the
acknowledged inventory exactly at the hashes it was told about since (`SessionInv.drift`). A later
heartbeat repairs such a hash as long as its delta still names it; a hash that has returned to its
acknowledged state is named by no delta. `Session.unacked` keeps the heartbeats recorded since the
last acknowledgment for this comparison only.
-/

namespace Aidars

open WorkerRegistry

/-! ## What heartbeats do to an inventory -/

namespace WorkerRegistry

/-- A hash that some string of a list is normalised to. -/
def NormalizesTo (hashes : List String) (h : String) : Prop :=
  ∃ rawH ∈ hashes, validateSha256Hex rawH = .ok h

theorem normalizesTo_cons {rawH h : String} {hashes : List String} :
    NormalizesTo (rawH :: hashes) h ↔ validateSha256Hex rawH = .ok h ∨ NormalizesTo hashes h := by
  simp [NormalizesTo]

/-- A list of digests normalises to its members. -/
theorem normalizesTo_digests {hashes : List String} (hd : ∀ h ∈ hashes, IsDigest h) (h : String) :
    NormalizesTo hashes h ↔ h ∈ hashes := by
  constructor
  · rintro ⟨rawH, hmem, hval⟩
    rw [validateSha256Hex_digest (hd rawH hmem)] at hval
    exact Except.ok.inj hval ▸ hmem
  · exact fun hmem => ⟨h, hmem, validateSha256Hex_digest (hd h hmem)⟩

variable {r : WorkerRegistry} {wid : String}

theorem mem_foldl_registerHash (wid : String) (hashes : List String) (acc : HashLoop) (h : String) :
    h ∈ (hashes.foldl (registerHash wid) acc).held ↔ h ∈ acc.held ∨ NormalizesTo hashes h := by
  induction hashes generalizing acc with
  | nil => simp [NormalizesTo]
  | cons rawH hashes ih =>
    rw [List.foldl_cons, ih, normalizesTo_cons, registerHash]
    cases hv : validateSha256Hex rawH with
    | error e => simp
    | ok normH =>
      rw [PySet.mem_insert, Except.ok.injEq, eq_comm]
      tauto

theorem mem_foldl_addHash (wid : String) (hashes : List String) (acc : HashLoop) (h : String) :
    h ∈ (hashes.foldl (addHash wid) acc).held ↔ h ∈ acc.held ∨ NormalizesTo hashes h := by
  induction hashes generalizing acc with
  | nil => simp [NormalizesTo]
  | cons rawH hashes ih =>
    rw [List.foldl_cons, ih, normalizesTo_cons, addHash]
    cases hv : validateSha256Hex rawH with
    | error e => simp
    | ok normH =>
      dsimp only
      rw [Except.ok.injEq]
      split_ifs with hm
      · constructor
        · exact fun hh => hh.imp_right Or.inr
        · rintro (hh | rfl | hh)
          · exact Or.inl hh
          · exact Or.inl hm
          · exact Or.inr hh
      · rw [PySet.mem_insert, eq_comm]
        tauto

theorem mem_foldl_removeHash (wid : String) (hashes : List String) (acc : HashLoop) (h : String) :
    h ∈ (hashes.foldl (removeHash wid) acc).held ↔ h ∈ acc.held ∧ ¬ NormalizesTo hashes h := by
  induction hashes generalizing acc with
  | nil => simp [NormalizesTo]
  | cons rawH hashes ih =>
    rw [List.foldl_cons, ih, normalizesTo_cons, removeHash]
    cases hv : validateSha256Hex rawH with
    | error e => simp
    | ok normH =>
      dsimp only
      rw [Except.ok.injEq]
      split_ifs with hm
      · rw [PySet.mem_erase, eq_comm]
        tauto
      · constructor
        · rintro ⟨hh, hn⟩
          refine ⟨hh, ?_⟩
          rintro (rfl | hn')
          · exact hm hh
          · exact hn hn'
        · exact fun hh => ⟨hh.1, fun hn => hh.2 (Or.inr hn)⟩

theorem mem_hashesOf_addWorkerHashes {info : WorkerInfo} (hw : r.workers.get? wid = some info)
    (hashes : List String) (h : String) :
    h ∈ (r.addWorkerHashes wid hashes).1.hashesOf wid ↔
      h ∈ r.hashesOf wid ∨ NormalizesTo hashes h := by
  unfold addWorkerHashes
  rw [hw]
  simp only [hashesOf, Dict.get?_set, if_true, Option.getD_some]
  exact mem_foldl_addHash wid hashes ⟨r.hashesOf wid, r.hashIndex, 0⟩ h

theorem mem_hashesOf_removeWorkerHashes (hr : IndexInv r) {info : WorkerInfo}
    (hw : r.workers.get? wid = some info) (hashes : List String) (h : String) :
    h ∈ (r.removeWorkerHashes wid hashes).1.hashesOf wid ↔
      h ∈ r.hashesOf wid ∧ ¬ NormalizesTo hashes h := by
  obtain ⟨d, hd⟩ := Option.isSome_iff_exists.1 (hr.isSome_hashes hw)
  unfold removeWorkerHashes
  rw [hw]
  simp only [hashesOf, Dict.get?_modify, if_true, hd, Option.map_some, Option.getD_some]
  have := mem_foldl_removeHash wid hashes ⟨r.hashesOf wid, r.hashIndex, 0⟩ h
  simpa only [hashesOf, hd, Option.getD_some] using this

theorem isSome_addWorkerHashes {info : WorkerInfo} (hw : r.workers.get? wid = some info)
    (hashes : List String) :
    ∃ info', (r.addWorkerHashes wid hashes).1.workers.get? wid = some info' := by
  unfold addWorkerHashes
  rw [hw]
  simp [setInventory, hw]

theorem mem_hashesOf_applyDeltas (hr : IndexInv r) {info : WorkerInfo}
    (hw : r.workers.get? wid = some info) (p : HeartbeatPayload) (h : String) :
    h ∈ (r.applyDeltas wid p).hashesOf wid ↔
      (h ∈ r.hashesOf wid ∨ NormalizesTo p.inventoryDeltaAdded.toList h) ∧
        ¬ NormalizesTo p.inventoryDeltaRemoved.toList h := by
  have hempty : ∀ s : PySet String, s = ∅ → ¬ NormalizesTo s.toList h := by
    rintro _ rfl ⟨rawH, hmem, -⟩
    exact PySet.notMem_empty rawH hmem
  unfold applyDeltas
  dsimp only
  split_ifs with hrem hadd hadd
  · simp [hempty _ hrem, hempty _ hadd]
  · simp [hempty _ hrem, mem_hashesOf_addWorkerHashes hw]
  · simp [hempty _ hadd, mem_hashesOf_removeWorkerHashes hr hw]
  · obtain ⟨info', hw'⟩ := isSome_addWorkerHashes hw p.inventoryDeltaAdded.toList
    rw [mem_hashesOf_removeWorkerHashes (hr.addWorkerHashes wid _) hw',
      mem_hashesOf_addWorkerHashes hw]

/-- **What a heartbeat does to the inventory of a registered worker.** -/
theorem mem_hashesOf_recordHeartbeat (hr : IndexInv r) {info : WorkerInfo}
    (hw : r.workers.get? wid = some info) (p : HeartbeatPayload) (now : ℚ) (h : String) :
    h ∈ (r.recordHeartbeat wid (some p) now).1.hashesOf wid ↔
      (h ∈ r.hashesOf wid ∨ NormalizesTo p.inventoryDeltaAdded.toList h) ∧
        ¬ NormalizesTo p.inventoryDeltaRemoved.toList h := by
  unfold recordHeartbeat
  rw [hw]
  have hr₁ := (hr.modify_workers wid (f := touch now) (fun _ => rfl) r.healthRecords).modify_workers
    wid (f := applyMetrics p) (fun _ => rfl) r.healthRecords
  refine mem_hashesOf_applyDeltas hr₁ (?_ : _ = some (applyMetrics p (touch now info))) p h
  simp [hw]

theorem registered_recordHeartbeat {info : WorkerInfo} (hw : r.workers.get? wid = some info)
    (p : HeartbeatPayload) (now : ℚ) :
    (r.recordHeartbeat wid (some p) now).2 = true ∧
      ∃ info', (r.recordHeartbeat wid (some p) now).1.workers.get? wid = some info' := by
  unfold recordHeartbeat
  rw [hw]
  refine ⟨rfl, ?_⟩
  have hs : ∀ r₁ : WorkerRegistry, r₁.statusOf wid = some info.status →
      ∃ info', r₁.workers.get? wid = some info' := by
    intro r₁ h
    obtain ⟨info', h', -⟩ := Option.map_eq_some_iff.1 h
    exact ⟨info', h'⟩
  obtain ⟨info', hi⟩ := hs (applyPayload { r with workers := r.workers.modify wid (touch now) } wid
      now p) (by
    rw [applyPayload_statusOf, statusOf_modify_id (r := r) (f := touch now) rfl (fun _ => rfl),
      statusOf, hw, Option.map_some])
  exact ⟨reviveStatus info', by simp [hi]⟩

theorem registerWorker_inventory {r' : WorkerRegistry} {info copy : WorkerInfo} {now : ℚ}
    (hid : validateWorkerId info.workerId = .ok wid)
    (h : r.registerWorker info now = .ok (r', copy)) :
    r'.workers.get? wid = some copy ∧
      ∀ x, x ∈ r'.hashesOf wid ↔ NormalizesTo info.inventoryHashes.toList x := by
  unfold registerWorker at h
  rw [hid] at h
  obtain ⟨rfl, rfl⟩ := Prod.mk.inj (Except.ok.inj h)
  refine ⟨by rw [Dict.get?_set, if_pos rfl], fun x => ?_⟩
  simp only [hashesOf, Dict.get?_set, if_true, Option.getD_some, mem_foldl_registerHash,
    PySet.notMem_empty, false_or]

end WorkerRegistry

/-! ## Sessions -/

/-- A heartbeat between worker and coordinator. -/
inductive Flight
  /-- No call of `send_heartbeat` is waiting. -/
  | idle
  /-- The request is under way; `inventory` is the store when it was built. -/
  | sent (payload : HeartbeatPayload) (inventory : PySet String) (fresh : Bool)
  /-- The coordinator has answered. -/
  | answered (reRegisterRequired : Bool) (inventory : PySet String) (fresh : Bool)
  deriving DecidableEq

/-- One worker and its coordinator. -/
structure Session where
  /-- The registration record of the worker, without its inventory. -/
  info : WorkerInfo
  /-- Its identifier is in the form under which the registry files it. -/
  id_valid : validateWorkerId info.workerId = .ok info.workerId
  cas : PySet String
  lastReportedInventory : PySet String
  flight : Flight := .idle
  registry : WorkerRegistry
  /-- The heartbeats that the coordinator recorded since the last response that arrived. -/
  unacked : List HeartbeatPayload := []

namespace Session

/-- What can happen: the store changes, a heartbeat is built, its request is lost or recorded, and
the response is lost or received. The readings of a heartbeat come with `build`. -/
inductive Action
  | casAdd (hash : String)
  | casDelete (hash : String)
  | build (readings : HeartbeatPayload)
  | loseRequest
  | deliver (now : ℚ)
  | loseResponse
  | receive (now : ℚ)

/-- The check of a delta set: every member is a SHA-256 digest. -/
def validateDeltas (v : PySet String) : Except ValueError (PySet String) :=
  (v.toList.mapM validateSha256Hex).map PySet.ofList

/-- The payload of a heartbeat: the readings, and the difference between the store and what was
last acknowledged. -/
def heartbeatPayload (s : Session) (readings : HeartbeatPayload) :
    Except ValueError HeartbeatPayload := do
  let added ← validateDeltas (s.cas.diff s.lastReportedInventory)
  let removed ← validateDeltas (s.lastReportedInventory.diff s.cas)
  return { readings with
    workerId := s.info.workerId, inventoryDeltaAdded := added, inventoryDeltaRemoved := removed }

/-- The hashes that the recorded, unacknowledged heartbeats name. -/
def unackedHashes (s : Session) : List String :=
  s.unacked.flatMap fun p => p.inventoryDeltaAdded.toList ++ p.inventoryDeltaRemoved.toList

/-- Every hash named by a recorded, unacknowledged heartbeat still differs between the store and
the acknowledged inventory. -/
def fresh (s : Session) : Bool :=
  s.unackedHashes.all fun h => !((h ∈ s.cas : Bool) == (h ∈ s.lastReportedInventory : Bool))

/-- The coordinator's heartbeat endpoint; the answer says whether to register again. -/
def workerHeartbeat (r : WorkerRegistry) (wid : String) (p : HeartbeatPayload) (now : ℚ) :
    WorkerRegistry × Bool :=
  if (r.workers.get? wid).isSome then
    let (r, recorded) := r.recordHeartbeat wid (some p) now
    (r, !recorded)
  else (r, true)

/-- Registration reports the whole store, and is acknowledged as a whole. -/
def register (s : Session) (now : ℚ) : Option Session :=
  match s.registry.registerWorker { s.info with inventoryHashes := s.cas, lastHeartbeatUtc := now }
      now with
  | .ok (r, _) => some { s with registry := r, lastReportedInventory := s.cas, unacked := [] }
  | .error _ => none

/-- One step of a session. A heartbeat that cannot be built, or that gets no answer, leaves the
acknowledged inventory alone. -/
def step (s : Session) : Action → Option Session
  | .casAdd hash =>
    match validateSha256Hex hash with
    | .ok normH => some { s with cas := s.cas.insert normH }
    | .error _ => none
  | .casDelete hash =>
    match validateSha256Hex hash with
    | .ok normH => some { s with cas := s.cas.erase normH }
    | .error _ => none
  | .build readings =>
    match s.flight, s.heartbeatPayload readings with
    | .idle, .ok p => some { s with flight := .sent p s.cas s.fresh }
    | .idle, .error _ => some s
    | _, _ => none
  | .loseRequest =>
    match s.flight with
    | .sent _ _ _ => some { s with flight := .idle }
    | _ => none
  | .deliver now =>
    match s.flight with
    | .sent p inventory fresh =>
      let (r, reRegister) := workerHeartbeat s.registry s.info.workerId p now
      some { s with
        registry := r
        unacked := if reRegister then s.unacked else s.unacked ++ [p]
        flight := .answered reRegister inventory fresh }
    | _ => none
  | .loseResponse =>
    match s.flight with
    | .answered _ _ _ => some { s with flight := .idle }
    | _ => none
  | .receive now =>
    match s.flight with
    | .answered true _ _ => register { s with flight := .idle } now
    | .answered false inventory _ =>
      some { s with flight := .idle, lastReportedInventory := inventory, unacked := [] }
    | _ => none

/-- A worker with a store of valid hashes registers with a coordinator that has served `ops`. -/
def start (cfg : RegistryConfig) (ops : List Op) (info : WorkerInfo)
    (hid : validateWorkerId info.workerId = .ok info.workerId) (hashes : List String) (now : ℚ) :
    Option Session :=
  register { info, id_valid := hid, cas := normalizedHashes hashes, lastReportedInventory := ∅,
             registry := run cfg ops } now

/-- The coordinator's inventory for the worker. -/
def coordinatorInventory (s : Session) : PySet String := s.registry.hashesOf s.info.workerId

/-- The step, if a worker receives a response, leaves the coordinator with the inventory that the
store had when the heartbeat was built. -/
def ReportedAt (s : Session) (a : Action) : Prop :=
  match a, s.flight with
  | .receive now, .answered _ inventory _ =>
    ∀ s', s.step (.receive now) = some s' → ∀ h, h ∈ s'.coordinatorInventory ↔ h ∈ inventory
  | _, _ => True

/-- The step, if a worker receives a response, is the answer to a heartbeat that was fresh when it
was built. -/
def FreshAt (s : Session) (a : Action) : Prop :=
  match a, s.flight with
  | .receive _, .answered _ _ fresh => fresh = true
  | _, _ => True

/-! ## The invariant -/

/-- What holds of a heartbeat in flight, by the acknowledged inventory, the coordinator's and the
hashes that recorded, unacknowledged heartbeats name. -/
def FlightInv (reported coordinator : PySet String) (unacked : List String) : Flight → Prop
  | .idle => True
  | .sent p inventory fresh =>
    (∀ h ∈ inventory, IsDigest h) ∧
    (∀ h, h ∈ p.inventoryDeltaAdded ↔ h ∈ inventory ∧ h ∉ reported) ∧
    (∀ h, h ∈ p.inventoryDeltaRemoved ↔ h ∈ reported ∧ h ∉ inventory) ∧
    (fresh = true ↔ ∀ h ∈ unacked, ¬ (h ∈ inventory ↔ h ∈ reported))
  | .answered reRegister inventory fresh =>
    reRegister = false ∧ (∀ h ∈ inventory, IsDigest h) ∧
    (fresh = true ↔ ∀ h, h ∈ coordinator ↔ h ∈ inventory)

/-- The coordinator's inventory and the acknowledged one differ exactly at the hashes named by
recorded, unacknowledged heartbeats. -/
structure SessionInv (s : Session) : Prop where
  index : IndexInv s.registry
  registered : ∃ info, s.registry.workers.get? s.info.workerId = some info
  cas : ∀ h ∈ s.cas, IsDigest h
  reported : ∀ h ∈ s.lastReportedInventory, IsDigest h
  drift : ∀ h, (h ∈ s.coordinatorInventory ↔ h ∈ s.lastReportedInventory) ↔ h ∉ s.unackedHashes
  flight : FlightInv s.lastReportedInventory s.coordinatorInventory s.unackedHashes s.flight

theorem mapM_validateSha256Hex {l : List String} (hd : ∀ h ∈ l, IsDigest h) :
    l.mapM validateSha256Hex = .ok l := by
  induction l with
  | nil => rfl
  | cons h l ih =>
    rw [List.mapM_cons, validateSha256Hex_digest (hd h (by simp)),
      ih fun h' hh => hd h' (List.mem_cons_of_mem h hh)]
    rfl

/-- The deltas of a store of digests pass their check unchanged. -/
theorem validateDeltas_digests {v : PySet String} (hd : ∀ h ∈ v, IsDigest h) :
    validateDeltas v = .ok (PySet.ofList v.toList) := by
  rw [validateDeltas, mapM_validateSha256Hex hd]
  rfl

theorem fresh_iff (s : Session) : s.fresh = true ↔
    ∀ h ∈ s.unackedHashes, ¬ (h ∈ s.cas ↔ h ∈ s.lastReportedInventory) := by
  simp only [fresh, List.all_eq_true, Bool.not_eq_true', beq_eq_false_iff_ne, ne_eq,
    decide_eq_decide]

theorem mem_unackedHashes_append (s : Session) (p : HeartbeatPayload) (h : String) :
    h ∈ (s.unacked ++ [p]).flatMap
        (fun p => p.inventoryDeltaAdded.toList ++ p.inventoryDeltaRemoved.toList) ↔
      h ∈ s.unackedHashes ∨ h ∈ p.inventoryDeltaAdded ∨ h ∈ p.inventoryDeltaRemoved := by
  simp [unackedHashes, List.flatMap_append]

namespace SessionInv

variable {s s' : Session}

/-- Registering brings coordinator, worker and store to one inventory. -/
theorem of_register {pre : Session} {now : ℚ} (hidx : IndexInv pre.registry)
    (hcas : ∀ h ∈ pre.cas, IsDigest h) (hidle : pre.flight = .idle)
    (h : register pre now = some s) : SessionInv s := by
  unfold register at h
  split at h
  · rename_i r copy hr
    obtain rfl := Option.some.inj h
    obtain ⟨hw, hinv⟩ := registerWorker_inventory (by exact pre.id_valid) hr
    refine ⟨hidx.registerWorker hr, ⟨copy, hw⟩, hcas, hcas, fun h => ?_, ?_⟩
    · simp only [coordinatorInventory, hinv, normalizesTo_digests hcas, PySet.mem_toList,
        unackedHashes, List.flatMap_nil, List.not_mem_nil, not_false_iff]
    · simp only [hidle, FlightInv]
  · cases h

theorem set_cas (hs : SessionInv s) {cas : PySet String} (hcas : ∀ h ∈ cas, IsDigest h) :
    SessionInv { s with cas } :=
  ⟨hs.index, hs.registered, hcas, hs.reported, hs.drift, hs.flight⟩

theorem set_idle (hs : SessionInv s) : SessionInv { s with flight := .idle } :=
  ⟨hs.index, hs.registered, hs.cas, hs.reported, hs.drift, trivial⟩

theorem build (hs : SessionInv s) (readings : HeartbeatPayload)
    (h : s.step (.build readings) = some s') : SessionInv s' := by
  have hadd : validateDeltas (s.cas.diff s.lastReportedInventory) =
      .ok (PySet.ofList (s.cas.diff s.lastReportedInventory).toList) :=
    validateDeltas_digests fun h hh => hs.cas h (PySet.mem_diff.1 hh).1
  have hrem : validateDeltas (s.lastReportedInventory.diff s.cas) =
      .ok (PySet.ofList (s.lastReportedInventory.diff s.cas).toList) :=
    validateDeltas_digests fun h hh => hs.reported h (PySet.mem_diff.1 hh).1
  unfold step at h
  dsimp only at h
  split at h
  · rename_i p _ hp
    obtain rfl := Option.some.inj h
    refine ⟨hs.index, hs.registered, hs.cas, hs.reported, hs.drift, ?_⟩
    simp only [heartbeatPayload, hadd, hrem] at hp
    obtain rfl := Except.ok.inj hp
    refine ⟨hs.cas, fun h => ?_, fun h => ?_, s.fresh_iff⟩
    · simp
    · simp
  · obtain rfl := Option.some.inj h
    exact hs
  · cases h

/-- A recorded heartbeat: the coordinator differs from the acknowledged inventory at the hashes it
was told about before and at those of this heartbeat, and it holds the inventory of the heartbeat
iff that was fresh. -/
theorem deliver (hs : SessionInv s) (now : ℚ) (h : s.step (.deliver now) = some s') :
    SessionInv s' := by
  unfold step at h
  dsimp only at h
  split at h
  · rename_i p inventory fresh hf
    have hfl := hs.flight
    rw [hf] at hfl
    obtain ⟨hdig, hadd, hrem, hfresh⟩ := hfl
    obtain ⟨info, hw⟩ := hs.registered
    obtain ⟨hrec, hw'⟩ := registered_recordHeartbeat hw p now
    have hhb : workerHeartbeat s.registry s.info.workerId p now =
        ((s.registry.recordHeartbeat s.info.workerId (some p) now).1, false) := by
      unfold workerHeartbeat
      simp [hw, hrec]
    rw [hhb] at h
    obtain rfl := Option.some.inj h
    -- the coordinator's inventory, hash by hash
    have hmem : ∀ h, h ∈ (s.registry.recordHeartbeat s.info.workerId (some p) now).1.hashesOf
        s.info.workerId ↔ (h ∈ s.coordinatorInventory ∨ h ∈ p.inventoryDeltaAdded) ∧
          h ∉ p.inventoryDeltaRemoved := by
      intro h
      have hda : ∀ h ∈ p.inventoryDeltaAdded.toList, IsDigest h :=
        fun h hh => hdig h ((hadd h).1 hh).1
      have hdr : ∀ h ∈ p.inventoryDeltaRemoved.toList, IsDigest h :=
        fun h hh => hs.reported h ((hrem h).1 hh).1
      rw [mem_hashesOf_recordHeartbeat hs.index hw, normalizesTo_digests hda,
        normalizesTo_digests hdr]
      rfl
    refine ⟨hs.index.recordHeartbeat _ _ _, hw', hs.cas, hs.reported, fun h => ?_, rfl, hdig, ?_⟩
    · have hd := hs.drift h
      simp only [coordinatorInventory, hmem, hadd, hrem, unackedHashes, if_neg,
        Bool.false_eq_true, mem_unackedHashes_append, not_false_iff]
      tauto
    · simp only [coordinatorInventory, hmem, hadd, hrem, hfresh]
      constructor
      · intro hn h
        have hd := hs.drift h
        have := hn h
        tauto
      · intro hall h hu hiff
        have hd := hs.drift h
        have := hall h
        tauto
  · cases h

/-- A response that arrives makes the inventory of its heartbeat the acknowledged one. -/
theorem receive (hs : SessionInv s) (now : ℚ) (hfresh : FreshAt s (.receive now))
    (h : s.step (.receive now) = some s') : SessionInv s' := by
  have hfl := hs.flight
  unfold step at h
  dsimp only at h
  split at h
  · rename_i hf
    rw [hf] at hfl
    exact absurd hfl.1 (by decide)
  · rename_i inventory fresh hf
    obtain rfl := Option.some.inj h
    rw [hf] at hfl
    obtain ⟨-, hdig, hiff⟩ := hfl
    have ht : fresh = true := by
      unfold FreshAt at hfresh
      rwa [hf] at hfresh
    refine ⟨hs.index, hs.registered, hs.cas, hdig, fun h => ?_, trivial⟩
    simp only [unackedHashes, List.flatMap_nil, List.not_mem_nil, not_false_iff, iff_true]
    exact hiff.1 ht h
  · cases h

/-- Every step that receives only fresh responses keeps the invariant. -/
theorem step (hs : SessionInv s) {a : Action} (hfresh : FreshAt s a) (h : s.step a = some s') :
    SessionInv s' := by
  cases a with
  | casAdd hash =>
    unfold Session.step at h
    dsimp only at h
    split at h
    · rename_i normH hv
      obtain rfl := Option.some.inj h
      refine hs.set_cas fun x hx => ?_
      rcases PySet.mem_insert.1 hx with rfl | hx
      · exact validateSha256Hex_isDigest hv
      · exact hs.cas x hx
    · cases h
  | casDelete hash =>
    unfold Session.step at h
    dsimp only at h
    split at h
    · obtain rfl := Option.some.inj h
      exact hs.set_cas fun x hx => hs.cas x (PySet.mem_erase.1 hx).2
    · cases h
  | build readings => exact hs.build readings h
  | loseRequest =>
    unfold Session.step at h
    dsimp only at h
    split at h
    · obtain rfl := Option.some.inj h
      exact hs.set_idle
    · cases h
  | deliver now => exact hs.deliver now h
  | loseResponse =>
    unfold Session.step at h
    dsimp only at h
    split at h
    · obtain rfl := Option.some.inj h
      exact hs.set_idle
    · cases h
  | receive now => exact hs.receive now hfresh h

/-- In a state with the invariant, a response brings the coordinator to the inventory of its
heartbeat iff that heartbeat was fresh. -/
theorem reportedAt_iff (hs : SessionInv s) {a : Action} (h : s.step a = some s') :
    ReportedAt s a ↔ FreshAt s a := by
  unfold ReportedAt FreshAt
  split
  · rename_i now reRegister inventory fresh hf
    have hfl := hs.flight
    rw [hf] at hfl
    obtain ⟨rfl, -, hiff⟩ := hfl
    rw [hiff]
    have hstep : s.step (.receive now) = some { s with
        flight := .idle, lastReportedInventory := inventory, unacked := [] } := by
      unfold Session.step
      rw [hf]
    rw [hstep]
    constructor
    · intro hall
      have := hall _ rfl
      exact this
    · rintro hall _ ⟨⟩
      exact hall
  · exact Iff.rfl

end SessionInv

theorem isDigest_normalizedHashes {hashes : List String} {h : String}
    (hh : h ∈ normalizedHashes hashes) : IsDigest h := by
  rw [normalizedHashes, PySet.mem_ofList, List.mem_filterMap] at hh
  obtain ⟨rawH, -, hv⟩ := hh
  cases hr : validateSha256Hex rawH with
  | error e => rw [hr] at hv; cases hv
  | ok normH =>
    rw [hr] at hv
    exact Option.some.inj hv ▸ validateSha256Hex_isDigest hr

/-- **When the inventory protocol keeps the coordinator in step.** Along every run of a registered
worker: each response that arrives leaves the coordinator with the inventory its heartbeat was
built from iff each answered heartbeat was fresh, that is, no hash named by a recorded but
unacknowledged heartbeat had returned to its acknowledged state when the answered one was built. -/
theorem heartbeat_inventory_iff_fresh (cfg : RegistryConfig) (ops : List Op) (info : WorkerInfo)
    (hid : validateWorkerId info.workerId = .ok info.workerId) (hashes : List String) (now : ℚ)
    (s : Session) (hs : start cfg ops info hid hashes now = some s) (as : List Action) :
    Along step ReportedAt s as ↔ Along step FreshAt s as := by
  have hinv : SessionInv s :=
    SessionInv.of_register (indexInv_run cfg ops) (fun _ => isDigest_normalizedHashes) rfl hs
  exact along_iff (fun s a s' hi h => hi.reportedAt_iff h) (fun s a s' hi hf h => hi.step hf h) hinv

/-- The SHA-256 digest of the empty input. -/
def emptyDigest : String := "e3b0c44298fc1c149afbf4c8996fb92427ae41e4649b934ca495991b7852b855"

/-- Readings of a heartbeat that carries no telemetry. -/
def bareReadings : HeartbeatPayload := { workerId := "w1", timestampUtc := 2 }

/-- A worker that registers with an empty store. -/
def emptyStart : Option Session :=
  start halvingConfig.toRegistryConfig [] freshWorker (by decide) [] 1

theorem emptyStart_isSome : emptyStart.isSome = true := by decide +kernel

/-- An asset is stored and reported, and the response arrives. -/
def acknowledgedRun : List Action :=
  [.casAdd emptyDigest, .build bareReadings, .deliver 3, .receive 4]

instance (s : Session) (a : Action) : Decidable (FreshAt s a) := by
  unfold FreshAt
  split <;> infer_instance

theorem heartbeat_inventory_iff_fresh_acknowledged :
    Along step ReportedAt (emptyStart.get emptyStart_isSome) acknowledgedRun := by
  rw [heartbeat_inventory_iff_fresh halvingConfig.toRegistryConfig [] freshWorker (by decide) [] 1
    _ (Option.some_get emptyStart_isSome).symm acknowledgedRun]
  decide +kernel

/-- An asset is stored and reported, the response is lost, the asset is deleted, and the next
heartbeat is recorded. -/
def revertedRun : List Action :=
  [.casAdd emptyDigest, .build bareReadings, .deliver 3, .loseResponse,
   .casDelete emptyDigest, .build bareReadings, .deliver 4]

theorem revertedRun_isSome :
    (runFrom step (emptyStart.get emptyStart_isSome) revertedRun).isSome = true := by
  decide +kernel

/-- The session in which the response to the second heartbeat is about to arrive. -/
def revertedSession : Session :=
  (runFrom step (emptyStart.get emptyStart_isSome) revertedRun).get revertedRun_isSome

theorem revertedSession_receives : (revertedSession.step (.receive 5)).isSome = true := by
  decide +kernel

/-- The acknowledged heartbeat of the run after the lost response carries no delta: its store is
empty, and the coordinator keeps the asset that was deleted. -/
theorem revertedRun_not_reported :
    ¬ Along step ReportedAt (emptyStart.get emptyStart_isSome) (revertedRun ++ [.receive 5]) := by
  intro h
  have hlast : ReportedAt revertedSession (.receive 5) :=
    h.at_step (Option.some_get revertedRun_isSome).symm
  have hf : revertedSession.flight = .answered false ∅ false := by decide +kernel
  unfold ReportedAt at hlast
  rw [hf] at hlast
  have hmem := hlast _ (Option.some_get revertedSession_receives).symm emptyDigest
  revert hmem
  decide +kernel

end Session

end Aidars
