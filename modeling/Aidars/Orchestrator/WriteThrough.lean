import Aidars.Attempt.Timed
import Aidars.Foundations.WriteThrough
import Aidars.Orchestrator.Removal

/-!
# Write-through of the registries

The registries of workloads, attempts and workers copy a record that a call has changed under their
lock and write the copy to the state store after they have released it. `registries` describes their
calls as a `Table`: the rows are those of the three tables of the store, and a row is written under
the identifier in the record.

Calls that overlap may write in the opposite order of their critical sections. The penalties of the
workers and the reset of the registry are not written at all, and a worker that is registered under
an identifier with blanks is written under that one. `write_through_agreement` states that without
these (`WritesInOrder`) the rows are the records when all calls have finished.
-/

namespace Aidars.Orchestrator

/-- The fields of a workload record that the orchestrator does not read. -/
structure WorkloadNotes where
  submittedAt : ℚ
  completedAt : Option ℚ := none
  placementExplanation : Dict String Json := ∅
  deriving DecidableEq

/-- The memory of the registries. -/
structure Memory where
  shared : State := {}
  notes : Dict String WorkloadNotes := ∅
  times : Dict String AttemptTimes := ∅

/-- The keys of the tables of the state store. -/
inductive RowKey
  | workload (id : String)
  | attempt (id : String)
  | worker (id : String)
  deriving DecidableEq

/-- A record of one of the registries. -/
inductive Row
  | workload (record : WorkloadRecord) (notes : Option WorkloadNotes)
  | attempt (record : AttemptRecord) (times : Option AttemptTimes)
  | worker (info : WorkerInfo)
  deriving DecidableEq

/-- The key that a record is written under. -/
def Row.key : Row → RowKey
  | .workload record _ => .workload record.spec.workloadId
  | .attempt record _ => .attempt record.attemptId
  | .worker info => .worker info.workerId

/-- The calls that change a record. -/
inductive RegistryCall
  | addWorkload (spec : WorkloadSpec) (now : ℚ)
  | updateState (workloadId : String) (st : WorkloadState) (errorMessage : Option String) (now : ℚ)
  | setPlacement (workloadId : String) (decision : Option PlacementDecision)
  | setResult (workloadId : String) (result : WorkloadExecutionResult) (now : ℚ)
  | updateSpec (spec : WorkloadSpec)
  | setPlacementExplanation (workloadId : String) (explanation : Dict String Json)
  | attempt (op : TimedAttempts.Op) (now : ℚ)
  | worker (op : WorkerRegistry.Op)

namespace Memory

/-- The attempts. -/
def attempts (m : Memory) : TimedAttempts := ⟨m.shared.attempts, m.times⟩

/-- The record under a key. -/
def view (m : Memory) : RowKey → Option Row
  | .workload id => (m.shared.workloads.get? id).map fun r => .workload r (m.notes.get? id)
  | .attempt id => (m.shared.attempts.getAttempt id).map fun r => .attempt r (m.times.get? id)
  | .worker id => (m.shared.registry.workers.get? id).map .worker

/-- The write of the record under a key, if there is one. -/
def saved (m : Memory) (k : RowKey) : List (RowKey × Option Row) :=
  match m.view k with
  | some row => [(row.key, some row)]
  | none => []

/-- States that complete a workload. -/
def completes (st : WorkloadState) : Bool :=
  [WorkloadState.completed, .failed, .timeout, .unschedulable].contains st

/-- A completion time that is set is kept. -/
def complete (now : ℚ) (notes : WorkloadNotes) : WorkloadNotes :=
  { notes with
    completedAt := if notes.completedAt.any (· ≠ 0) then notes.completedAt else some now }

variable (cfg : RegistryConfig)

/-- The critical section of a call. -/
def commit (m : Memory) : RegistryCall → Memory
  | .addWorkload spec now =>
    match m.shared.workloads.get? spec.workloadId with
    | some _ => m
    | none => { m with
      shared := { m.shared with workloads := m.shared.workloads.set spec.workloadId { spec } }
      notes := m.notes.set spec.workloadId { submittedAt := now } }
  | .updateState w st errorMessage now => { m with
    shared := m.shared.updateState w st errorMessage
    notes := if completes st then m.notes.modify w (complete now) else m.notes }
  | .setPlacement w decision => { m with shared := m.shared.setPlacement w decision }
  | .setResult w result now => { m with
    shared := m.shared.setResult w result
    notes := m.notes.modify w fun notes => { notes with completedAt := some now } }
  | .updateSpec spec => { m with shared := m.shared.updateSpec spec }
  | .setPlacementExplanation w explanation => { m with
    notes := m.notes.modify w fun notes => { notes with placementExplanation := explanation } }
  | .attempt op now =>
    let t := m.attempts.apply now op
    { m with shared := { m.shared with attempts := t.registry }, times := t.times }
  | .worker op =>
    { m with shared := { m.shared with registry := m.shared.registry.apply cfg op } }

/-- The writes of a call that are made under the lock. -/
def lockedWrites (m : Memory) (call : RegistryCall) : List (RowKey × Option Row) :=
  match call with
  | .worker (.setWorkerStatus wid status) =>
    if (m.shared.registry.workers.get? wid).any (·.status ≠ status) then
      (m.commit cfg call).saved (.worker wid)
    else []
  | .worker (.recordCorruption wid sha256Hex _ _) =>
    if (m.shared.registry.healthRecords.get? wid).isSome ∧
        (validateSha256Hex sha256Hex).toOption.isSome then
      (m.commit cfg call).saved (.worker wid)
    else []
  | _ => []

/-- The writes of a call after it has released the lock. -/
def writes (m : Memory) (call : RegistryCall) : List (RowKey × Option Row) :=
  let m' := m.commit cfg call
  match call with
  | .addWorkload spec _ =>
    match m.shared.workloads.get? spec.workloadId with
    | some _ => []
    | none => m'.saved (.workload spec.workloadId)
  | .updateState w _ _ _ => m'.saved (.workload w)
  | .setPlacement w _ => m'.saved (.workload w)
  | .setResult w _ _ => m'.saved (.workload w)
  | .updateSpec spec => m'.saved (.workload spec.workloadId)
  | .setPlacementExplanation w _ => m'.saved (.workload w)
  | .attempt op _ => m'.saved (.attempt (op.target m.attempts))
  | .worker (.registerWorker info _) =>
    match validateWorkerId info.workerId with
    | .ok wid => m'.saved (.worker wid)
    | .error _ => []
  | .worker (.unregisterWorker wid) =>
    if (m.shared.registry.workers.get? wid).isSome then [(.worker wid, none)] else []
  | .worker (.addWorkerHashes wid _) => m'.saved (.worker wid)
  | .worker (.removeWorkerHashes wid _) => m'.saved (.worker wid)
  | .worker (.syncWorkerInventory wid _) => m'.saved (.worker wid)
  | .worker (.recordHeartbeat wid _ _) => m'.saved (.worker wid)
  | .worker (.evictExpiredWorkers timeoutSeconds now) =>
    (m.shared.registry.evictExpiredWorkers cfg timeoutSeconds now).2.map fun wid =>
      (.worker wid, none)
  | .worker _ => []

end Memory

/-- The registries as a table. -/
def registries (cfg : RegistryConfig) : Table Memory RowKey Row RegistryCall where
  view := Memory.view
  commit call m := m.commit cfg call
  lockedWrites call m := m.lockedWrites cfg call
  writes call m := m.writes cfg call

/-- The call does not write the records of workers. -/
def memoryOnly : WorkerRegistry.Op → Bool
  | .recordSuccess .. => true
  | .recordFailure .. => true
  | .recordCorruption _ sha256Hex _ _ => (validateSha256Hex sha256Hex).toOption.isNone
  | .decayPenalties _ => true
  | .clear => true
  | _ => false

/-- A worker is registered under a stripped identifier, a call that does not write the records of
workers does not change them, and no write puts a copy over a newer one. -/
def WritesInOrder (cfg : RegistryConfig) (c : Written Memory RowKey Row) :
    WriteStep RegistryCall → Prop
  | .call (.worker (.registerWorker info _)) =>
    (validateWorkerId info.workerId).toOption.all (· = info.workerId)
  | .call (.worker op) => memoryOnly op = true → ∀ k ∈ c.memory.shared.registry.workers.keys,
      (c.memory.shared.registry.apply cfg op).workers.get? k =
        c.memory.shared.registry.workers.get? k
  | .call _ => True
  | .write i => c.WritesForward i

/-! ## What a call does to the records -/

namespace Memory

variable {cfg : RegistryConfig} {m m' : Memory} {k k₀ : RowKey} {call : RegistryCall}

/-- Every record is filed under the key that it is written under. -/
def Filed (m : Memory) : Prop := ∀ k row, m.view k = some row → row.key = k

/-- At most the record under one key is new or rewritten. -/
structure Touches (k₀ : RowKey) (m m' : Memory) : Prop where
  frame : ∀ k, k ≠ k₀ → m'.view k = m.view k
  key : ∀ row', m'.view k₀ = some row' →
    row'.key = k₀ ∨ ∃ row, m.view k₀ = some row ∧ row'.key = row.key
  kept : m'.view k₀ = none → m.view k₀ = none

/-- What a call does to the records, with its writes. -/
inductive Effect (m m' : Memory) (call : RegistryCall) : List (RowKey × Option Row) → Prop
  | touched (k : RowKey) (h : Touches k m m') : Effect m m' call (m'.saved k)
  | removed (ids : List String)
      (h : ∀ k, m'.view k = if k ∈ ids.map RowKey.worker then none else m.view k) :
      Effect m m' call (ids.map fun id => (.worker id, none))
  | same (h : ∀ k, m'.view k = m.view k) : Effect m m' call []
  | unsaved (op : WorkerRegistry.Op) (hcall : call = .worker op) (hop : memoryOnly op = true)
      (h : ∀ k row', m'.view k = some row' → ∃ row, m.view k = some row ∧ row'.key = row.key) :
      Effect m m' call []

/-- The records of workloads are rewritten under one key. -/
theorem touches_workload {w : String} {f : WorkloadRecord → WorkloadRecord}
    (hworkloads : ∀ v, m'.shared.workloads.get? v =
      if v = w then (m.shared.workloads.get? w).map f else m.shared.workloads.get? v)
    (hf : ∀ r, (f r).spec.workloadId = r.spec.workloadId ∨ (f r).spec.workloadId = w)
    (hnotes : ∀ v, v ≠ w → m'.notes.get? v = m.notes.get? v)
    (hattempts : m'.attempts = m.attempts) (hregistry : m'.shared.registry = m.shared.registry) :
    Touches (.workload w) m m' := by
  refine ⟨fun k hk => ?_, fun row' hrow => ?_, fun hnone => ?_⟩
  · cases k with
    | workload v =>
      have hne : v ≠ w := fun he => hk (congrArg _ he)
      rw [view, view, hworkloads, if_neg hne, hnotes v hne]
    | attempt id =>
      have hreg :
        m'.shared.attempts = m.shared.attempts := congrArg TimedAttempts.registry hattempts
      have htimes : m'.times = m.times := congrArg TimedAttempts.times hattempts
      rw [view, view, hreg, htimes]
    | worker id => rw [view, view, hregistry]
  · rw [view, hworkloads, if_pos rfl, Option.map_map] at hrow
    obtain ⟨r, hr, rfl⟩ := Option.map_eq_some_iff.1 hrow
    rcases hf r with he | he
    · exact .inr ⟨.workload r (m.notes.get? w), by rw [view, hr, Option.map_some],
        congrArg RowKey.workload he⟩
    · exact .inl (congrArg RowKey.workload he)
  · rw [view, hworkloads, if_pos rfl, Option.map_map, Option.map_eq_none_iff] at hnone
    rw [view, hnone, Option.map_none]

theorem touches_attempt (m : Memory) (op : TimedAttempts.Op) (now : ℚ) :
    Touches (.attempt (op.target m.attempts)) m (m.commit cfg (.attempt op now)) := by
  refine ⟨fun k hk => ?_, fun row' hrow => ?_, fun hnone => ?_⟩
  · cases k with
    | workload v => rfl
    | attempt id =>
      have hne : id ≠ op.target m.attempts := fun he => hk (congrArg _ he)
      exact congrArg₂ (fun (r : Option AttemptRecord) t => r.map fun r => Row.attempt r t)
        (m.attempts.getAttempt_apply now op hne) (m.attempts.times_apply now op hne)
    | worker id => rfl
  · obtain ⟨r, hr, rfl⟩ := Option.map_eq_some_iff.1 hrow
    rcases m.attempts.attemptId_apply now op hr with he | ⟨r₀, hr₀, he⟩
    · exact .inl (congrArg RowKey.attempt he)
    · refine .inr ⟨.attempt r₀ (m.times.get? (op.target m.attempts)), ?_,
        congrArg RowKey.attempt he⟩
      exact (congrArg (Option.map _) hr₀).trans rfl
  · have hregistry := m.attempts.getAttempt_target now op (Option.map_eq_none_iff.1 hnone)
    exact (congrArg (Option.map _) hregistry).trans rfl

theorem touches_worker {r : WorkerRegistry} {wid : String}
    (h : WorkerRegistry.Rewrites wid m.shared.registry r) :
    Touches (.worker wid) m { m with shared := { m.shared with registry := r } } := by
  obtain ⟨f, hf, hworkers⟩ := h
  refine ⟨fun k hk => ?_, fun row' hrow => ?_, fun hnone => ?_⟩
  · cases k with
    | workload v => rfl
    | attempt id => rfl
    | worker id =>
      have hne : id ≠ wid := fun he => hk (congrArg _ he)
      rw [view, view, hworkers, if_neg hne]
  · rw [view, hworkers, if_pos rfl, Option.map_map] at hrow
    obtain ⟨info, hinfo, rfl⟩ := Option.map_eq_some_iff.1 hrow
    exact .inr ⟨.worker info, by rw [view, hinfo, Option.map_some],
      congrArg RowKey.worker (hf info)⟩
  · rw [view, hworkers, if_pos rfl, Option.map_map, Option.map_eq_none_iff] at hnone
    rw [view, hnone, Option.map_none]

/-- A registration under a stripped identifier. -/
theorem touches_registerWorker {r : WorkerRegistry} {info copy : WorkerInfo} {now : ℚ}
    (h : m.shared.registry.registerWorker info now = .ok (r, copy))
    (hid : (validateWorkerId info.workerId).toOption.all (· = info.workerId) = true) :
    validateWorkerId info.workerId = .ok info.workerId ∧
      Touches (.worker info.workerId) m { m with shared := { m.shared with registry := r } } := by
  obtain ⟨wid, hwid, hcopy, -, hworkers, -⟩ := WorkerRegistry.workers_registerWorker h
  obtain rfl : wid = info.workerId := by
    rw [hwid] at hid
    exact of_decide_eq_true hid
  refine ⟨hwid, fun k hk => ?_, fun row' hrow => ?_, fun hnone => ?_⟩
  · cases k with
    | workload v => rfl
    | attempt id => rfl
    | worker id =>
      have hne : id ≠ info.workerId := fun he => hk (congrArg _ he)
      rw [view, view, hworkers, Dict.get?_set, if_neg hne]
  · rw [view, hworkers, Dict.get?_set, if_pos rfl] at hrow
    obtain rfl := Option.some.inj hrow
    exact .inl (congrArg RowKey.worker hcopy)
  · rw [view, hworkers, Dict.get?_set, if_pos rfl] at hnone
    cases hnone

theorem view_removed {r : WorkerRegistry} {ids : List String}
    (h : ∀ k, r.workers.get? k = if k ∈ ids then none else m.shared.registry.workers.get? k)
    (k : RowKey) : view { m with shared := { m.shared with registry := r } } k =
      if k ∈ ids.map RowKey.worker then none else m.view k := by
  cases k with
  | workload v => simp [view]
  | attempt id => simp [view]
  | worker id =>
    rw [view, view, h]
    simp only [List.mem_map, RowKey.worker.injEq, exists_eq_right]
    split_ifs <;> rfl

theorem effect_saved {op : WorkerRegistry.Op} {wid : String}
    (h : WorkerRegistry.Rewrites wid m.shared.registry (m.shared.registry.apply cfg op)) :
    Effect m (m.commit cfg (.worker op)) (.worker op)
      ((m.commit cfg (.worker op)).saved (.worker wid)) :=
  .touched (.worker wid) (touches_worker h)

theorem effect_worker (m : Memory) (op : WorkerRegistry.Op)
    (hid : ∀ info now, op = .registerWorker info now →
      (validateWorkerId info.workerId).toOption.all (· = info.workerId) = true) :
    Effect m (m.commit cfg (.worker op)) (.worker op)
      (m.lockedWrites cfg (.worker op) ++ m.writes cfg (.worker op)) := by
  have hunsaved (hop : memoryOnly op = true) :
      Effect m (m.commit cfg (.worker op)) (.worker op) [] := by
    refine .unsaved op rfl hop fun k row' hrow => ?_
    cases k with
    | workload v => exact ⟨row', hrow, rfl⟩
    | attempt id => exact ⟨row', hrow, rfl⟩
    | worker id =>
      obtain ⟨info', hinfo', rfl⟩ := Option.map_eq_some_iff.1 hrow
      have hinherits :
          WorkerRegistry.Inherits m.shared.registry (m.shared.registry.apply cfg op) :=
        WorkerRegistry.inherits_apply _ (by rintro info now rfl; cases hop)
      obtain ⟨info, hinfo, he⟩ := hinherits id info' hinfo'
      exact ⟨.worker info, by rw [view, hinfo, Option.map_some], congrArg RowKey.worker he⟩
  cases op with
  | registerWorker info now =>
    have hstripped := hid info now rfl
    cases hv : validateWorkerId info.workerId with
    | error e =>
      have hr : m.shared.registry.registerWorker info now = .error e := by
        rw [WorkerRegistry.registerWorker, hv]
      simp only [lockedWrites, writes, commit, WorkerRegistry.apply, hr, hv, List.nil_append]
      exact .same fun _ => rfl
    | ok wid =>
      cases hr : m.shared.registry.registerWorker info now with
      | error e =>
        rw [WorkerRegistry.registerWorker, hv] at hr
        cases hr
      | ok rc =>
        obtain ⟨hwid, htouches⟩ := touches_registerWorker hr hstripped
        simp only [lockedWrites, writes, commit, WorkerRegistry.apply, hr, hwid, List.nil_append]
        exact .touched _ htouches
  | unregisterWorker wid =>
    have hview : ∀ k, view (m.commit cfg (.worker (.unregisterWorker wid))) k =
        if k ∈ [wid].map RowKey.worker then none else m.view k := by
      refine view_removed fun k => ?_
      rw [WorkerRegistry.apply, WorkerRegistry.workers_unregisterWorker]
      simp only [List.mem_singleton]
    show Effect m _ _
      (if (m.shared.registry.workers.get? wid).isSome then [(RowKey.worker wid, none)] else [])
    split_ifs with hk
    · exact .removed [wid] hview
    · refine .same fun k => ?_
      rw [hview]
      split_ifs with hmem
      · obtain rfl := List.mem_singleton.1 hmem
        rw [view, Option.not_isSome_iff_eq_none.1 hk, Option.map_none]
      · rfl
  | addWorkerHashes wid hashes =>
    exact effect_saved (WorkerRegistry.rewrites_addWorkerHashes _ wid hashes)
  | removeWorkerHashes wid hashes =>
    exact effect_saved (WorkerRegistry.rewrites_removeWorkerHashes _ wid hashes)
  | syncWorkerInventory wid inventory =>
    exact effect_saved (WorkerRegistry.rewrites_syncWorkerInventory _ wid inventory)
  | recordHeartbeat wid payload now =>
    exact effect_saved (WorkerRegistry.rewrites_recordHeartbeat _ wid payload now)
  | evictExpiredWorkers timeoutSeconds now =>
    exact .removed _
      (view_removed fun k => WorkerRegistry.workers_evictExpiredWorkers timeoutSeconds now)
  | recordSuccess wid bytes now => exact hunsaved rfl
  | recordFailure wid penalty now => exact hunsaved rfl
  | recordCorruption wid hash penalty now =>
    show Effect m _ _ ((if (m.shared.registry.healthRecords.get? wid).isSome ∧
      (validateSha256Hex hash).toOption.isSome then _ else []) ++ [])
    rw [List.append_nil]
    split_ifs with hk
    · exact effect_saved (WorkerRegistry.rewrites_recordCorruption _ wid hash penalty now)
    · rcases not_and_or.1 hk with hhealth | hhash
      · -- a worker without a health record is left alone
        refine .same fun k => ?_
        rw [commit, WorkerRegistry.apply, WorkerRegistry.recordCorruption,
          Option.not_isSome_iff_eq_none.1 hhealth]
      · exact hunsaved (Option.isNone_iff_eq_none.2 (Option.not_isSome_iff_eq_none.1 hhash))
  | decayPenalties now => exact hunsaved rfl
  | setWorkerStatus wid status =>
    show Effect m _ _
      ((if (m.shared.registry.workers.get? wid).any (·.status ≠ status) then _ else []) ++ [])
    rw [List.append_nil]
    split_ifs with hk
    · exact effect_saved (.of_modify (f := fun w => { w with status }) rfl fun _ => rfl)
    · -- the worker has the status already
      refine .same fun k => ?_
      cases k with
      | workload v => rfl
      | attempt id => rfl
      | worker id =>
        rw [commit, WorkerRegistry.apply, WorkerRegistry.setWorkerStatus, view, view,
          Dict.get?_modify]
        split_ifs with he
        · subst he
          cases hinfo : m.shared.registry.workers.get? id with
          | none => rfl
          | some info =>
            rw [hinfo, Option.any_some, decide_eq_true_iff, not_not] at hk
            rw [Option.map_some, ← hk]
        · rfl
  | clear => exact hunsaved rfl

theorem touches_addWorkload {spec : WorkloadSpec} {now : ℚ}
    (hnone : m.shared.workloads.get? spec.workloadId = none) :
    Touches (.workload spec.workloadId) m (m.commit cfg (.addWorkload spec now)) := by
  have hcommit : m.commit cfg (.addWorkload spec now) = { m with
      shared := { m.shared with workloads := m.shared.workloads.set spec.workloadId { spec } }
      notes := m.notes.set spec.workloadId { submittedAt := now } } := by
    simp only [commit, hnone]
  rw [hcommit]
  refine ⟨fun k hk => ?_, fun row' hrow => ?_, fun h => ?_⟩
  · cases k with
    | workload v =>
      have hne : v ≠ spec.workloadId := fun he => hk (congrArg _ he)
      rw [view, view, Dict.get?_set, Dict.get?_set, if_neg hne, if_neg hne]
    | attempt id => rfl
    | worker id => rfl
  · rw [view] at hrow
    dsimp only at hrow
    rw [Dict.get?_set, Dict.get?_set, if_pos rfl, if_pos rfl] at hrow
    obtain rfl := Option.some.inj hrow
    exact .inl rfl
  · rw [view] at h
    dsimp only at h
    rw [Dict.get?_set, Dict.get?_set, if_pos rfl, if_pos rfl] at h
    cases h

theorem get?_modify_of_ne {notes : Dict String WorkloadNotes} {f : WorkloadNotes → WorkloadNotes}
    {v w : String} (h : v ≠ w) : (notes.modify w f).get? v = notes.get? v := by
  rw [Dict.get?_modify, if_neg h]

/-- **What a call does to the records**, with its writes. -/
theorem effect_call (m : Memory) (call : RegistryCall)
    (hid : ∀ info now, call = .worker (.registerWorker info now) →
      (validateWorkerId info.workerId).toOption.all (· = info.workerId) = true) :
    Effect m (m.commit cfg call) call (m.lockedWrites cfg call ++ m.writes cfg call) := by
  cases call with
  | addWorkload spec now =>
    cases hw : m.shared.workloads.get? spec.workloadId with
    | some r =>
      simp only [lockedWrites, writes, commit, hw, List.nil_append]
      exact .same fun _ => rfl
    | none =>
      have htouches :
          Touches (.workload spec.workloadId) m (m.commit cfg (.addWorkload spec now)) :=
        touches_addWorkload hw
      simp only [lockedWrites, writes, hw, List.nil_append]
      exact .touched _ htouches
  | updateState w st errorMessage now =>
    refine .touched (.workload w) (touches_workload (fun v => Dict.get?_modify ..)
      (fun r => .inl rfl) (fun v hv => ?_) rfl rfl)
    rw [commit]
    dsimp only
    split_ifs
    · exact get?_modify_of_ne hv
    · rfl
  | setPlacement w decision =>
    exact .touched (.workload w) (touches_workload (fun v => Dict.get?_modify ..)
      (fun r => .inl rfl) (fun v hv => rfl) rfl rfl)
  | setResult w result now =>
    exact .touched (.workload w) (touches_workload (fun v => Dict.get?_modify ..)
      (fun r => .inl rfl) (fun v hv => get?_modify_of_ne hv) rfl rfl)
  | updateSpec spec =>
    exact .touched (.workload spec.workloadId) (touches_workload (fun v => Dict.get?_modify ..)
      (fun r => .inr rfl) (fun v hv => rfl) rfl rfl)
  | setPlacementExplanation w explanation =>
    refine .touched (.workload w) (touches_workload (f := id) (fun v => ?_) (fun r => .inl rfl)
      (fun v hv => get?_modify_of_ne hv) rfl rfl)
    rw [Option.map_id, id]
    split_ifs with hv
    · rw [hv]
      rfl
    · rfl
  | attempt op now => exact .touched _ (touches_attempt m op now)
  | worker op => exact effect_worker m op fun info now he => hid info now (congrArg _ he)

/-! ## Calls keep records filed and copy what they change -/

theorem Effect.filed {l : List (RowKey × Option Row)} (h : Effect m m' call l) (hm : Filed m) :
    Filed m' := by
  intro k row hrow
  cases h with
  | touched k₀ ht =>
    by_cases hk : k = k₀
    · subst hk
      rcases ht.key row hrow with he | ⟨row₀, hrow₀, he⟩
      · exact he
      · rw [he]
        exact hm k row₀ hrow₀
    · rw [ht.frame k hk] at hrow
      exact hm k row hrow
  | removed ids hr =>
    rw [hr] at hrow
    split_ifs at hrow
    exact hm k row hrow
  | same hs =>
    rw [hs] at hrow
    exact hm k row hrow
  | unsaved op hcall hop hu =>
    obtain ⟨row₀, hrow₀, he⟩ := hu k row hrow
    rw [he]
    exact hm k row₀ hrow₀

/-- A copy is written under the key of its record. -/
theorem mem_saved (hm : Filed m) {e : RowKey × Option Row} :
    e ∈ m.saved k ↔ e.1 = k ∧ e.2 = m.view k ∧ m.view k ≠ none := by
  unfold saved
  cases hv : m.view k with
  | none => simp
  | some row =>
    rw [List.mem_singleton, hm k row hv]
    constructor
    · rintro rfl
      exact ⟨rfl, rfl, Option.some_ne_none row⟩
    · rintro ⟨he₁, he₂, -⟩
      exact Prod.ext he₁ he₂

theorem Effect.exact {l : List (RowKey × Option Row)} (h : Effect m m' call l) (hm : Filed m) :
    ∀ e ∈ l, e.2 = m'.view e.1 := by
  intro e he
  have hm' := h.filed hm
  cases h with
  | touched k₀ ht =>
    obtain ⟨hk, hv, -⟩ := (mem_saved hm').1 he
    rw [hk, hv]
  | removed ids hr =>
    obtain ⟨id, hid, rfl⟩ := List.mem_map.1 he
    rw [hr, if_pos (List.mem_map_of_mem hid)]
  | same hs => cases he
  | unsaved op hcall hop hu => cases he

/-- A call that writes takes a copy of each record that it changes. -/
theorem Effect.copies {l : List (RowKey × Option Row)} (h : Effect m m' call l) (hm : Filed m)
    (hunsaved : ∀ op, call = .worker op → memoryOnly op = true → m'.view k = m.view k)
    (hk : m'.view k ≠ m.view k) : ∃ e ∈ l, e.1 = k := by
  have hm' := h.filed hm
  cases h with
  | touched k₀ ht =>
    obtain rfl : k = k₀ := by_contra fun hne => hk (ht.frame k hne)
    refine ⟨(k, m'.view k), (mem_saved hm').2 ⟨rfl, rfl, fun hnone => hk ?_⟩, rfl⟩
    rw [hnone, ht.kept hnone]
  | removed ids hr =>
    rw [hr] at hk
    split_ifs at hk with hmem
    · obtain ⟨id, hid, rfl⟩ := List.mem_map.1 hmem
      exact ⟨(.worker id, none), List.mem_map_of_mem hid, rfl⟩
    · exact absurd rfl hk
  | same hs => exact absurd (hs k) hk
  | unsaved op hcall hop hu => exact absurd (hunsaved op hcall hop) hk

end Memory

/-! ## Runs in order -/

/-- Registrations are under stripped identifiers. -/
def Stripped : RegistryCall → Prop
  | .worker (.registerWorker info _) =>
    (validateWorkerId info.workerId).toOption.all (· = info.workerId) = true
  | _ => True

instance (cfg : RegistryConfig) (c : Written Memory RowKey Row) (a : WriteStep RegistryCall) :
    Decidable (WritesInOrder cfg c a) := by
  unfold WritesInOrder
  split <;> infer_instance

variable {cfg : RegistryConfig} {c c' : Written Memory RowKey Row} {a : WriteStep RegistryCall}
  {call : RegistryCall}

theorem effect_of_stripped (m : Memory) (h : Stripped call) :
    Memory.Effect m (m.commit cfg call) call (m.lockedWrites cfg call ++ m.writes cfg call) :=
  Memory.effect_call m call (by rintro info now rfl; exact h)

/-- The calls copy what their critical sections leave. -/
theorem registries_exact : (registries cfg).Exact Memory.Filed Stripped :=
  ⟨fun _ m hm h => (effect_of_stripped m h).filed hm,
    fun _ m hm h => (effect_of_stripped m h).exact hm⟩

theorem stripped_of_inOrder (h : WritesInOrder cfg c (.call call)) : Stripped call := by
  cases call with
  | worker op =>
    cases op with
    | registerWorker info now => exact h
    | _ => trivial
  | _ => trivial

theorem view_of_memoryOnly {op : WorkerRegistry.Op} (h : WritesInOrder cfg c (.call (.worker op)))
    (hop : memoryOnly op = true) (k : RowKey) :
    (c.memory.commit cfg (.worker op)).view k = c.memory.view k := by
  have hnot : ∀ info now, op ≠ .registerWorker info now := by
    rintro info now rfl
    cases hop
  have hkeys : ∀ k ∈ c.memory.shared.registry.workers.keys,
      (c.memory.shared.registry.apply cfg op).workers.get? k =
        c.memory.shared.registry.workers.get? k := by
    cases op with
    | registerWorker info now => exact absurd rfl (hnot info now)
    | _ => exact h hop
  cases k with
  | workload v => rfl
  | attempt id => rfl
  | worker id =>
    refine congrArg (Option.map Row.worker) ?_
    cases hold : c.memory.shared.registry.workers.get? id with
    | some info => exact (hkeys id (Dict.mem_keys.2 ⟨info, hold⟩)).trans hold
    | none =>
      -- no record is new
      cases hnew : (c.memory.shared.registry.apply cfg op).workers.get? id with
      | none => exact hnew
      | some info' =>
        obtain ⟨info, hinfo, -⟩ := WorkerRegistry.inherits_apply _ hnot id info' hnew
        rw [hold] at hinfo
        cases hinfo

theorem inOrder_step (hm : c.memory.Filed) (h : WritesInOrder cfg c a) :
    Table.Calls Stripped c a ∧ (registries cfg).InOrder c a := by
  cases a with
  | call call =>
    refine ⟨stripped_of_inOrder h, fun k hk => ?_⟩
    refine (effect_of_stripped c.memory (stripped_of_inOrder h)).copies hm ?_ hk
    rintro op rfl hop
    exact view_of_memoryOnly h hop k
  | write i => exact ⟨trivial, h⟩

theorem filed_write_step (hm : c.memory.Filed) (h : WritesInOrder cfg c a)
    (hstep : (registries cfg).step c a = some c') : c'.memory.Filed := by
  cases a with
  | call call =>
    obtain rfl := Option.some.inj hstep
    have hmemory : ((registries cfg).call c call).memory = c.memory.commit cfg call :=
      (Table.foldl_store _ _).1
    rw [hmemory]
    exact (effect_of_stripped c.memory (stripped_of_inOrder h)).filed hm
  | write i =>
    change c.write i = some c' at hstep
    unfold Written.write at hstep
    split at hstep
    · obtain rfl := Option.some.inj hstep
      exact hm
    · cases hstep

theorem filed_empty : Memory.Filed {} := by
  intro k row hrow
  cases k <;> cases hrow

/-- A worker registers and leaves while its heartbeat is written late. -/
def lateHeartbeat (x : String) : List (WriteStep RegistryCall) :=
  [.call (.worker (.registerWorker (sampleWorker x) 0)), .write 0,
    .call (.worker (.recordHeartbeat x none 1)), .call (.worker (.unregisterWorker x))]

end Aidars.Orchestrator
