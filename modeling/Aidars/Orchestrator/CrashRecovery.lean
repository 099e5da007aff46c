import Aidars.Attempt.Restore
import Aidars.Orchestrator.Recovery
import Aidars.Orchestrator.Unverified
import Aidars.Store.Reregistration

/-!
# Crash recovery

What a coordinator does before it serves again: it reads its tables back in a fixed order
(`restorePersistedState`) and drives the workloads again that were not terminal
(`redriveRecoveredWorkload`). Each table is rewritten as it is read: workers are offline, attempts
in flight are lost, and what is driven again is submitted without a placement; all of this is
written to the store at once.

The rows may be any that the store writes (`Store.WellFormed`). `crash_recovery_iff` says when a
recovery does all that is asked of it: exactly when redacting the parameters of the workloads that
are driven again, which were redacted when they were stored, changes nothing.
-/

namespace Aidars.Orchestrator

/-! ## The store -/

/-- The row of a workload, with the time of its submission. -/
structure StoredWorkload where
  row : WorkloadRow
  submittedAt : ℚ
  deriving DecidableEq

/-- The row of an attempt, with the time of its end. -/
structure StoredAttempt where
  row : AttemptRow
  finishedAt : Option ℚ
  deriving DecidableEq

/-- The tables of the state store. -/
structure Store where
  workers : Dict String WorkerInfo := ∅
  jobs : Dict String JobRow := ∅
  workloads : Dict String StoredWorkload := ∅
  attempts : Dict String StoredAttempt := ∅

/-- A coordinator that recovers: the shared state, the times that records carry, and the store. -/
structure Recovering where
  state : State := {}
  submittedAt : Dict String ℚ := ∅
  finishedAt : Dict String (Option ℚ) := ∅
  store : Store := {}

variable (cfg : Config) (now : ℚ)

/-! ## Restoring the tables -/

/-- The jobs that can be read, by identifier. -/
def restoreJobs (rows : Dict String JobRow) : Dict String JobRecord :=
  (rows.values.filterMap fun row => (StateStore.loadJob row).map Prod.fst).foldl
    (fun jobs job => jobs.set job.jobId job) ∅

/-- A workload as it is loaded, with the time of its submission. -/
def loadWorkload (stored : StoredWorkload) : Option (WorkloadRecord × ℚ) :=
  (StateStore.rowToWorkloadRecord cfg.floatRepr stored.row).map fun r => (r, stored.submittedAt)

/-- The workloads that can be read. -/
def loadWorkloads (rows : Dict String StoredWorkload) : List (WorkloadRecord × ℚ) :=
  rows.values.filterMap (loadWorkload cfg)

/-- Insert a workload that was loaded. -/
def restoreWorkload (c : Recovering) (loaded : WorkloadRecord × ℚ) : Recovering :=
  { c with
    state := { c.state with
      workloads := c.state.workloads.set loaded.1.spec.workloadId loaded.1 }
    submittedAt := c.submittedAt.set loaded.1.spec.workloadId loaded.2 }

/-- An attempt as it is loaded, with the time of its end. -/
def loadAttempt (stored : StoredAttempt) : Option (AttemptRecord × Option ℚ) :=
  (StateStore.rowToAttempt stored.row).map fun r => (r, stored.finishedAt)

/-- An attempt that was in flight is lost, and ends now if it has not ended. -/
def loseLoaded (loaded : AttemptRecord × Option ℚ) : AttemptRecord × Option ℚ :=
  if loaded.1.status.isActive then
    (State.loseInFlight loaded.1, (loaded.2.filter (· ≠ 0)) <|> some now)
  else loaded

/-- The row of an attempt with the time of its end. An attempt that was loaded can be saved: its
format version comes from the column. -/
def saveLoaded (loaded : AttemptRecord × Option ℚ) : StoredAttempt :=
  { row := StateStore.attemptRow loaded.1, finishedAt := loaded.2 }

/-- Insert an attempt that was loaded. One that is lost is saved first. -/
def restoreLoadedAttempt (c : Recovering) (loaded : AttemptRecord × Option ℚ) : Recovering :=
  let rows := c.store.attempts
  let rows := if loaded.1.status.isActive then
    rows.set loaded.1.attemptId (saveLoaded (loseLoaded now loaded)) else rows
  let attempt := loseLoaded now loaded
  { c with
    state := { c.state with attempts := c.state.attempts.restoreAttempt attempt.1 }
    finishedAt := c.finishedAt.set attempt.1.attemptId attempt.2
    store := { c.store with attempts := rows } }

/-- Read the tables back; returns the identifiers of the workloads to drive again. -/
def restorePersistedState (store : Store) : Recovering × List String :=
  let workers := PersistedRegistry.restoreWorkers { rows := store.workers } store.workers.values now
  let c : Recovering :=
    { state := { registry := workers.registry, jobs := restoreJobs store.jobs }
      store := { store with workers := workers.rows } }
  let loaded := loadWorkloads cfg store.workloads
  let c := loaded.foldl restoreWorkload c
  let pending := (loaded.filter fun l => !l.1.state.isTerminal).map (·.1.spec.workloadId)
  ((store.attempts.values.filterMap loadAttempt).foldl (restoreLoadedAttempt now) c, pending)

/-! ## Driving workloads again -/

/-- Insert or update the row of a workload. -/
def saveRow (c : Recovering) (r : WorkloadRecord) (submittedAt : ℚ) : Recovering :=
  let rows := c.store.workloads.set r.spec.workloadId
    { row := StateStore.saveWorkload r, submittedAt }
  { c with store := { c.store with workloads := rows } }

/-- Write the record of a workload to the store. -/
def persistWorkload (c : Recovering) (w : String) : Recovering :=
  match c.state.workloads.get? w, c.submittedAt.get? w with
  | some r, some submittedAt => saveRow c r submittedAt
  | _, _ => c

/-- Change the shared state, and write the row of the workload. -/
def mutateWorkload (c : Recovering) (w : String) (f : State → State) : Recovering :=
  persistWorkload { c with state := f c.state } w

/-- Drive a workload that was recovered again: it is submitted without a placement, and queued. -/
def redriveRecoveredWorkload (c : Recovering) (w : String) : Recovering :=
  match c.state.stateOf w with
  | some st =>
    if st.isTerminal then c
    else
      let c := mutateWorkload c w (·.setPlacement w none)
      let c := mutateWorkload c w (·.updateState w .submitted)
      { c with state := c.state.enqueueWorkload w }
  | none => c

/-- Recover from a store. -/
def recover (store : Store) : Recovering :=
  let (c, pending) := restorePersistedState cfg now store
  pending.foldl redriveRecoveredWorkload c

/-! ## Rows that the store writes -/

/-- Every row is that of a record, under its own key, and those of workers and attempts can be
read. -/
structure Store.Written (store : Store) : Prop where
  workers : PersistedRegistry.Readable store.workers
  workloads : ∀ k stored, store.workloads.get? k = some stored →
    ∃ r : WorkloadRecord, r.spec.workloadId = k ∧ stored.row = StateStore.saveWorkload r
  attempts : ∀ k stored, store.attempts.get? k = some stored →
    ∃ r : AttemptRecord, r.attemptId = k ∧ r.Identified ∧
      StateStore.saveAttempt r = some stored.row ∧ (StateStore.reloadAttempt r).isSome = true

/-- Every row is well formed: that of a record, under its own key, and it can be read. -/
structure Store.WellFormed (cfg : Config) (store : Store) : Prop extends Store.Written store where
  readable : ∀ k stored, store.workloads.get? k = some stored →
    (loadWorkload cfg stored).isSome = true

/-! ## Workloads -/

section Workloads

variable {cfg : Config} {now : ℚ} {c : Recovering} {store : Store} {w k : String}
  {r : WorkloadRecord} {stored : StoredWorkload}

/-- What a recovering coordinator knows of a workload: its record, the time of its submission, its
row, and whether it is queued. -/
@[ext] structure Seen where
  record : Option WorkloadRecord
  submittedAt : Option ℚ
  row : Option StoredWorkload
  queued : Bool

/-- What is known of a workload. -/
def Recovering.seen (c : Recovering) (k : String) : Seen where
  record := c.state.workloads.get? k
  submittedAt := c.submittedAt.get? k
  row := c.store.workloads.get? k
  queued := decide (k ∈ c.state.queued)

/-- Records are filed under their identifiers and have a time of submission, and nothing is being
processed. -/
structure Ready (c : Recovering) : Prop where
  filed : ∀ k r, c.state.workloads.get? k = some r →
    r.spec.workloadId = k ∧ (c.submittedAt.get? k).isSome = true
  idle : c.state.processing = ∅

/-- Driving a workload again, as it is seen. -/
def redriveSeen (v : Seen) : Seen :=
  match v.record, v.submittedAt with
  | some r, some submittedAt =>
    if r.state.isTerminal then v
    else { record := some (State.redrive r), submittedAt := some submittedAt
           row := some { row := StateStore.saveWorkload (State.redrive r), submittedAt }
           queued := true }
  | _, _ => v

theorem rows_saveRow (c : Recovering) (r : WorkloadRecord) (t : ℚ) (k : String) :
    (saveRow c r t).store.workloads.get? k = if k = r.spec.workloadId then
      some { row := StateStore.saveWorkload r, submittedAt := t } else c.store.workloads.get? k :=
  Dict.get?_set ..

/-- A change of one record is written to its row. -/
theorem mutateWorkload_eq {f : State → State} {g : WorkloadRecord → WorkloadRecord} {t : ℚ}
    (hf : (f c.state).workloads = c.state.workloads.modify w g)
    (hr : c.state.workloads.get? w = some r) (ht : c.submittedAt.get? w = some t) :
    mutateWorkload c w f = saveRow { c with state := f c.state } (g r) t := by
  have hget : (f c.state).workloads.get? w = some (g r) := by
    rw [hf, Dict.get?_modify, if_pos rfl, hr, Option.map_some]
  unfold mutateWorkload persistWorkload
  dsimp only
  rw [hget, ht]

/-- A turn changes the workloads, the queue, and the rows of workloads. -/
structure SameRest (c c' : Recovering) : Prop where
  state : c'.state = { c.state with workloads := c'.state.workloads, queued := c'.state.queued }
  finishedAt : c'.finishedAt = c.finishedAt
  store : c'.store = { c.store with workloads := c'.store.workloads }

theorem SameRest.refl (c : Recovering) : SameRest c c := ⟨rfl, rfl, rfl⟩

theorem SameRest.trans {c₁ c₂ c₃ : Recovering} (h₁ : SameRest c₁ c₂) (h₂ : SameRest c₂ c₃) :
    SameRest c₁ c₃ := by
  refine ⟨?_, h₂.finishedAt.trans h₁.finishedAt, ?_⟩
  · rw [h₂.state, h₁.state]
  · rw [h₂.store, h₁.store]

/-- **A workload that is driven again**, as it is seen. -/
theorem redriveRecoveredWorkload_live (hc : Ready c) (hr : c.state.workloads.get? w = some r)
    (hlive : r.state.isTerminal = false) : SameRest c (redriveRecoveredWorkload c w) ∧
      ∀ k, (redriveRecoveredWorkload c w).seen k =
        if k = w then redriveSeen (c.seen k) else c.seen k := by
  obtain ⟨hid, htimed⟩ := hc.filed w r hr
  obtain ⟨t, ht⟩ := Option.isSome_iff_exists.1 htimed
  -- the two writes, one after the other
  have hfirst := mutateWorkload_eq (f := (·.setPlacement w none))
    (g := fun r => { r with placementDecision := none }) rfl hr ht
  have hget : (saveRow { c with state := c.state.setPlacement w none }
      { r with placementDecision := none } t).state.workloads.get? w =
        some { r with placementDecision := none } := by
    show (c.state.workloads.modify w _).get? w = _
    rw [Dict.get?_modify, if_pos rfl, hr]
    rfl
  have hsecond := mutateWorkload_eq (f := (·.updateState w .submitted))
    (g := fun r => { r with state := .submitted }) rfl hget ht
  have hredrive : State.redrive r = { r with placementDecision := none, state := .submitted } := by
    rw [State.redrive, hlive]
    rfl
  have hidle : w ∉ (∅ : PySet String) := PySet.notMem_empty w
  have hqueue : ∀ s : State, s.processing = ∅ → s.stateOf w = some .submitted →
      s.enqueueWorkload w = { s with queued := s.queued.insert w } := by
    intro s hp hs
    unfold State.enqueueWorkload
    rw [hp, if_neg hidle, hs]
  have heq : redriveRecoveredWorkload c w =
      { saveRow (saveRow c { r with placementDecision := none } t) (State.redrive r) t with
        state := { (c.state.setPlacement w none).updateState w .submitted with
          queued := c.state.queued.insert w } } := by
    have hstate : c.state.stateOf w = some r.state := by rw [State.stateOf, hr, Option.map_some]
    unfold redriveRecoveredWorkload
    rw [hstate]
    dsimp only
    rw [if_neg (by rw [hlive]; exact Bool.false_ne_true), hfirst, hsecond, ← hredrive, hqueue]
    · rfl
    · exact hc.idle
    · show ((c.state.setPlacement w none).updateState w .submitted).stateOf w = _
      rw [stateOf_updateState, stateOf_setPlacement, hstate]
      rfl
  rw [heq]
  refine ⟨⟨rfl, rfl, rfl⟩, fun k => ?_⟩
  have hrid : (State.redrive r).spec.workloadId = w := by rw [spec_redrive, hid]
  split_ifs with hk
  · subst hk
    have hterminal : ¬ r.state.isTerminal = true := by rw [hlive]; exact Bool.false_ne_true
    have hrecord : (((c.state.setPlacement k none).updateState k .submitted).workloads).get? k =
        some (State.redrive r) := by
      show ((c.state.workloads.modify k _).modify k _).get? k = _
      rw [Dict.get?_modify, if_pos rfl, Dict.get?_modify, if_pos rfl, hr, hredrive]
      rfl
    simp only [Recovering.seen, redriveSeen, hr, ht, if_neg hterminal]
    refine Seen.ext hrecord ht ?_ ?_
    · exact (rows_saveRow _ _ _ _).trans (if_pos hrid.symm)
    · exact decide_eq_true (PySet.mem_insert.2 (.inl rfl))
  · refine Seen.ext ?_ rfl ?_ ?_
    · show ((c.state.workloads.modify w _).modify w _).get? k = _
      rw [Dict.get?_modify, if_neg hk, Dict.get?_modify, if_neg hk]
      rfl
    · have hne : k ≠ (State.redrive r).spec.workloadId := hrid ▸ hk
      exact (rows_saveRow _ _ _ _).trans ((if_neg hne).trans
        ((rows_saveRow _ _ _ _).trans (if_neg (hid ▸ hk))))
    · exact decide_eq_decide.2 (PySet.mem_insert.trans (or_iff_right hk))

/-- **Driving a workload again**, as it is seen: a terminal one is left alone. -/
theorem redriveRecoveredWorkload_spec (hc : Ready c) (w : String) :
    SameRest c (redriveRecoveredWorkload c w) ∧ ∀ k, (redriveRecoveredWorkload c w).seen k =
      if k = w then redriveSeen (c.seen k) else c.seen k := by
  have hsame : redriveSeen (c.seen w) = c.seen w → redriveRecoveredWorkload c w = c →
      SameRest c (redriveRecoveredWorkload c w) ∧ ∀ k, (redriveRecoveredWorkload c w).seen k =
        if k = w then redriveSeen (c.seen k) else c.seen k := by
    intro hseen heq
    rw [heq]
    refine ⟨.refl c, fun k => ?_⟩
    split_ifs with hk
    · rw [hk, hseen]
    · rfl
  cases hr : c.state.workloads.get? w with
  | none =>
    refine hsame ?_ ?_
    · rw [redriveSeen, Recovering.seen, hr]
    · unfold redriveRecoveredWorkload State.stateOf
      rw [hr]
      rfl
  | some r =>
    cases hterminal : r.state.isTerminal with
    | false => exact redriveRecoveredWorkload_live hc hr hterminal
    | true =>
      obtain ⟨t, ht⟩ := Option.isSome_iff_exists.1 (hc.filed w r hr).2
      refine hsame ?_ ?_
      · simp only [redriveSeen, Recovering.seen, hr, ht, hterminal, if_true]
      · unfold redriveRecoveredWorkload State.stateOf
        rw [hr]
        simp only [Option.map_some, hterminal, if_true]

theorem ready_redriveRecoveredWorkload (hc : Ready c) (w : String) :
    Ready (redriveRecoveredWorkload c w) := by
  obtain ⟨hrest, hseen⟩ := redriveRecoveredWorkload_spec hc w
  refine ⟨fun k r' hr' => ?_, ?_⟩
  · have hk := hseen k
    have hrecord : (redriveRecoveredWorkload c w).state.workloads.get? k = _ :=
      congrArg Seen.record hk
    have htime : (redriveRecoveredWorkload c w).submittedAt.get? k = _ :=
      congrArg Seen.submittedAt hk
    rw [hrecord] at hr'
    rw [htime]
    split_ifs at hr' ⊢ with hkw
    · unfold redriveSeen at hr' ⊢
      split at hr'
      · rename_i r t hr ht
        have hold := hc.filed k r hr
        split_ifs at hr' ⊢ with hterminal
        · exact hc.filed k r' hr'
        · obtain rfl := Option.some.inj hr'
          exact ⟨(spec_redrive r).symm ▸ hold.1, rfl⟩
      · exact hc.filed k r' hr'
    · exact hc.filed k r' hr'
  · rw [hrest.state]
    exact hc.idle

theorem foldl_redrive (hc : Ready c) {pending : List String} (hnodup : pending.Nodup) (k : String) :
    SameRest c (pending.foldl redriveRecoveredWorkload c) ∧
      (pending.foldl redriveRecoveredWorkload c).seen k =
        if k ∈ pending then redriveSeen (c.seen k) else c.seen k := by
  have hinv : ∀ c w, Ready c → Ready (redriveRecoveredWorkload c w) :=
    fun _ w hc => ready_redriveRecoveredWorkload hc w
  have hstep : ∀ c w k, Ready c → (redriveRecoveredWorkload c w).seen k =
      if k = id w then redriveSeen (c.seen k) else c.seen k :=
    fun _ w k hc => (redriveRecoveredWorkload_spec hc w).2 k
  constructor
  · exact (foldl_invariant (fun c' => Ready c' ∧ SameRest c c')
      (fun c' w h => ⟨hinv c' w h.1, h.2.trans (redriveRecoveredWorkload_spec h.1 w).1⟩)
      ⟨hc, .refl c⟩).2
  · split_ifs with hk
    · exact foldl_view_of_mem id Recovering.seen (fun _ => redriveSeen) Ready hinv hstep hc
        (by rwa [List.map_id]) hk
    · exact foldl_view_of_notMem id Recovering.seen (fun _ => redriveSeen) Ready hinv hstep hc
        (by rwa [List.map_id])

/-- The workload that is loaded from its row. -/
def loadedAt (cfg : Config) (store : Store) (k : String) : Option (WorkloadRecord × ℚ) :=
  (store.workloads.get? k).bind (loadWorkload cfg)

/-- A workload as its row tells it. -/
def storedSeen (cfg : Config) (store : Store) (k : String) : Seen where
  record := (loadedAt cfg store k).map Prod.fst
  submittedAt := (loadedAt cfg store k).map Prod.snd
  row := store.workloads.get? k
  queued := false

theorem loadWorkload_some {loaded : WorkloadRecord × ℚ}
    (h : loadWorkload cfg stored = some loaded)
    (hrow : stored.row = StateStore.saveWorkload r) :
    StateStore.reloadWorkload cfg.floatRepr r = some loaded.1 ∧
      loaded.2 = stored.submittedAt := by
  obtain ⟨r', hr', rfl⟩ := Option.map_eq_some_iff.1 h
  rw [hrow] at hr'
  exact ⟨hr', rfl⟩

theorem Store.Written.loaded_id (h : store.Written) {loaded : WorkloadRecord × ℚ}
    (hstored : store.workloads.get? k = some stored)
    (hload : loadWorkload cfg stored = some loaded) : loaded.1.spec.workloadId = k := by
  obtain ⟨r, hid, hrow⟩ := h.workloads k stored hstored
  exact (StateStore.reloadWorkload_some (loadWorkload_some hload hrow).1).1.trans hid

theorem Store.Written.nodup_loaded (h : store.Written) (cfg : Config) :
    ((loadWorkloads cfg store.workloads).map (·.1.spec.workloadId)).Nodup :=
  Dict.nodup_map_filterMap_values fun _ _ _ => h.loaded_id

theorem Store.Written.mem_loaded (h : store.Written) {loaded : WorkloadRecord × ℚ} :
    loaded ∈ loadWorkloads cfg store.workloads ↔
      loadedAt cfg store loaded.1.spec.workloadId = some loaded := by
  rw [loadWorkloads, List.mem_filterMap, loadedAt, Option.bind_eq_some_iff]
  constructor
  · rintro ⟨stored, hmem, hload⟩
    obtain ⟨k, hk⟩ := Dict.mem_values.1 hmem
    exact ⟨stored, h.loaded_id hk hload ▸ hk, hload⟩
  · rintro ⟨stored, hk, hload⟩
    exact ⟨stored, Dict.mem_values.2 ⟨_, hk⟩, hload⟩

theorem Store.Written.loadedAt_id (h : store.Written) {loaded : WorkloadRecord × ℚ}
    (hload : loadedAt cfg store k = some loaded) : loaded.1.spec.workloadId = k := by
  obtain ⟨stored, hk, hload⟩ := Option.bind_eq_some_iff.1 hload
  exact h.loaded_id hk hload

theorem foldl_restoreWorkload_rest (loaded : List (WorkloadRecord × ℚ)) (c : Recovering) :
    SameRest c (loaded.foldl restoreWorkload c) ∧
      (loaded.foldl restoreWorkload c).store = c.store ∧
      (loaded.foldl restoreWorkload c).state.queued = c.state.queued := by
  induction loaded generalizing c with
  | nil => exact ⟨.refl c, rfl, rfl⟩
  | cons l loaded ih =>
    obtain ⟨hrest, hstore, hqueued⟩ := ih (restoreWorkload c l)
    have hone : SameRest c (restoreWorkload c l) := ⟨rfl, rfl, rfl⟩
    exact ⟨hone.trans hrest, hstore, hqueued⟩

/-- The workloads after they were inserted. -/
theorem seen_restoreWorkloads (h : store.Written) (hempty : c.state.workloads = ∅)
    (htimes : c.submittedAt = ∅) (hqueued : c.state.queued = ∅)
    (hstore : c.store.workloads = store.workloads) (k : String) :
    ((loadWorkloads cfg store.workloads).foldl restoreWorkload c).seen k =
      storedSeen cfg store k := by
  obtain ⟨-, hsame, hq⟩ := foldl_restoreWorkload_rest (loadWorkloads cfg store.workloads) c
  let view := fun (c : Recovering) k => (c.state.workloads.get? k, c.submittedAt.get? k)
  let write := fun (l : WorkloadRecord × ℚ) (_ : Option WorkloadRecord × Option ℚ) =>
    (some l.1, some l.2)
  have hstep : ∀ c (l : WorkloadRecord × ℚ) k, True → view (restoreWorkload c l) k =
      if k = l.1.spec.workloadId then write l (view c k) else view c k := by
    intro c l k _
    simp only [view, write, restoreWorkload, Dict.get?_set]
    split_ifs <;> rfl
  have hview : view ((loadWorkloads cfg store.workloads).foldl restoreWorkload c) k =
      ((storedSeen cfg store k).record, (storedSeen cfg store k).submittedAt) := by
    cases hk : loadedAt cfg store k with
    | none =>
      have hnot : k ∉ (loadWorkloads cfg store.workloads).map (·.1.spec.workloadId) := by
        intro hmem
        obtain ⟨l, hl, rfl⟩ := List.mem_map.1 hmem
        rw [h.mem_loaded.1 hl] at hk
        cases hk
      rw [foldl_view_of_notMem _ view write _ (fun _ _ _ => trivial) hstep trivial hnot]
      simp only [view, hempty, htimes, storedSeen, hk]
      rfl
    | some loaded =>
      obtain rfl := h.loadedAt_id hk
      rw [foldl_view_of_mem _ view write _ (fun _ _ _ => trivial) hstep trivial (h.nodup_loaded cfg)
        (h.mem_loaded.2 hk)]
      simp only [write, storedSeen, hk, Option.map_some]
  refine Seen.ext (congrArg Prod.fst hview) (congrArg Prod.snd hview) ?_ ?_
  · show ((loadWorkloads cfg store.workloads).foldl restoreWorkload c).store.workloads.get? k = _
    rw [hsame, hstore]
    rfl
  · show decide (k ∈ ((loadWorkloads cfg store.workloads).foldl restoreWorkload c).state.queued) = _
    rw [hq, hqueued]
    exact decide_eq_false (PySet.notMem_empty k)

end Workloads

/-! ## Attempts -/

section Attempts

variable {now : ℚ} {c : Recovering} {store : Store} {cfg : Config} {id : String}
  {stored : StoredAttempt}

/-- A turn changes the attempts, the times of their ends, and their rows. -/
structure SameButAttempts (c c' : Recovering) : Prop where
  state : c'.state = { c.state with attempts := c'.state.attempts }
  submittedAt : c'.submittedAt = c.submittedAt
  store : c'.store = { c.store with attempts := c'.store.attempts }

theorem foldl_restoreLoadedAttempt_rest (now : ℚ) (loaded : List (AttemptRecord × Option ℚ))
    (c : Recovering) : SameButAttempts c (loaded.foldl (restoreLoadedAttempt now) c) := by
  induction loaded generalizing c with
  | nil => exact ⟨rfl, rfl, rfl⟩
  | cons l loaded ih =>
    obtain ⟨hstate, htimes, hstore⟩ := ih (restoreLoadedAttempt now c l)
    refine ⟨hstate.trans ?_, htimes, hstore.trans ?_⟩ <;> rfl

theorem attempts_foldl_restoreLoadedAttempt (loaded : List (AttemptRecord × Option ℚ))
    (c : Recovering) : (loaded.foldl (restoreLoadedAttempt now) c).state.attempts =
      (loaded.map fun l => (loseLoaded now l).1).foldl AttemptRegistry.restoreAttempt
        c.state.attempts := by
  induction loaded generalizing c with
  | nil => rfl
  | cons l loaded ih => exact ih (restoreLoadedAttempt now c l)

theorem identity_loseLoaded (now : ℚ) (loaded : AttemptRecord × Option ℚ) :
    (loseLoaded now loaded).1.attemptId = loaded.1.attemptId ∧
      (loseLoaded now loaded).1.workloadId = loaded.1.workloadId ∧
      (loseLoaded now loaded).1.attemptNumber = loaded.1.attemptNumber := by
  unfold loseLoaded State.loseInFlight
  split_ifs <;> exact ⟨rfl, rfl, rfl⟩

theorem Store.Written.loadAttempt (h : store.Written)
    (hstored : store.attempts.get? id = some stored) : ∃ r,
      r.attemptId = id ∧ r.Identified ∧ StateStore.reloadAttempt r = some r ∧
      Aidars.Orchestrator.loadAttempt stored = some (r, stored.finishedAt) := by
  obtain ⟨r₀, hid, hident, hrow, hload⟩ := h.attempts id stored hstored
  obtain ⟨r, hr⟩ := Option.isSome_iff_exists.1 hload
  have hread : StateStore.rowToAttempt stored.row = some r := by
    rwa [StateStore.reloadAttempt, hrow, Option.bind_some] at hr
  obtain ⟨hrid, hrw, hrn, -⟩ := StateStore.reloadAttempt_some hr
  refine ⟨r, hrid.trans hid, ⟨?_, ?_⟩, StateStore.reloadAttempt_settles hr, ?_⟩
  · rw [hrid, hrw, hrn]
    exact hident.id
  · rw [hrn]
    exact hident.pos
  · rw [Orchestrator.loadAttempt, hread, Option.map_some]

/-- What a recovering coordinator knows of an attempt: its record, the time of its end, and its
row. -/
@[ext] structure SeenAttempt where
  record : Option AttemptRecord
  finishedAt : Option (Option ℚ)
  row : Option StoredAttempt

/-- What is known of an attempt. -/
def Recovering.seenAttempt (c : Recovering) (id : String) : SeenAttempt where
  record := c.state.attempts.getAttempt id
  finishedAt := c.finishedAt.get? id
  row := c.store.attempts.get? id

/-- Inserting an attempt that was loaded, as it is seen. -/
def restoreSeen (now : ℚ) (loaded : AttemptRecord × Option ℚ) (v : SeenAttempt) : SeenAttempt where
  record := some (loseLoaded now loaded).1
  finishedAt := some (loseLoaded now loaded).2
  row := if loaded.1.status.isActive then some (saveLoaded (loseLoaded now loaded)) else v.row

theorem seenAttempt_restoreLoadedAttempt (c : Recovering) (loaded : AttemptRecord × Option ℚ)
    (id : String) : (restoreLoadedAttempt now c loaded).seenAttempt id =
      if id = loaded.1.attemptId then restoreSeen now loaded (c.seenAttempt id)
      else c.seenAttempt id := by
  have hid := (identity_loseLoaded now loaded).1
  have hrow : (restoreLoadedAttempt now c loaded).store.attempts.get? id =
      if id = loaded.1.attemptId then
        (if loaded.1.status.isActive then some (saveLoaded (loseLoaded now loaded))
          else c.store.attempts.get? id)
      else c.store.attempts.get? id := by
    unfold restoreLoadedAttempt
    dsimp only
    cases loaded.1.status.isActive with
    | true =>
      rw [if_pos rfl, Dict.get?_set]
      rfl
    | false => rw [if_neg Bool.false_ne_true, if_neg Bool.false_ne_true, ite_self]
  have hrecord : (restoreLoadedAttempt now c loaded).state.attempts.getAttempt id =
      if id = loaded.1.attemptId then some (loseLoaded now loaded).1
      else c.state.attempts.getAttempt id := by
    rw [← hid]
    exact AttemptRegistry.getAttempt_restoreAttempt ..
  have htime : (restoreLoadedAttempt now c loaded).finishedAt.get? id =
      if id = loaded.1.attemptId then some (loseLoaded now loaded).2
      else c.finishedAt.get? id := by
    rw [← hid]
    exact Dict.get?_set ..
  unfold Recovering.seenAttempt
  rw [hrecord, htime, hrow]
  by_cases h : id = loaded.1.attemptId
  · rw [if_pos h, if_pos h, if_pos h, if_pos h]
    rfl
  · rw [if_neg h, if_neg h, if_neg h, if_neg h]

/-- An attempt after it was restored, as its row tells it. -/
def storedSeenAttempt (now : ℚ) (store : Store) (id : String) : SeenAttempt :=
  let unseen : SeenAttempt := { record := none, finishedAt := none, row := store.attempts.get? id }
  match (store.attempts.get? id).bind loadAttempt with
  | some loaded => restoreSeen now loaded unseen
  | none => unseen

theorem Store.Written.map_loadAttempt (h : store.Written) :
    (store.attempts.values.filterMap Orchestrator.loadAttempt).map (·.1.attemptId) =
      store.attempts.keys := by
  refine Dict.map_filterMap_values fun k stored hk => ?_
  obtain ⟨r, hid, -, -, hload⟩ := h.loadAttempt hk
  exact ⟨_, hload, hid⟩

/-- **The attempts after they were restored.** -/
theorem seenAttempt_restoreAttempts (h : store.Written) (hempty : c.state.attempts = {})
    (htimes : c.finishedAt = ∅) (hstore : c.store.attempts = store.attempts) (id : String) :
    ((store.attempts.values.filterMap loadAttempt).foldl (restoreLoadedAttempt now) c).seenAttempt
      id = storedSeenAttempt now store id := by
  have hunseen : c.seenAttempt id =
      { record := none, finishedAt := none, row := store.attempts.get? id } := by
    unfold Recovering.seenAttempt
    rw [hempty, htimes, hstore]
    rfl
  have hkeys := h.map_loadAttempt
  unfold storedSeenAttempt
  cases hk : store.attempts.get? id with
  | none =>
    have hnot : id ∉ (store.attempts.values.filterMap loadAttempt).map (·.1.attemptId) := by
      rw [hkeys]
      exact Dict.not_mem_keys.2 hk
    rw [foldl_view_of_notMem _ Recovering.seenAttempt (restoreSeen now) (fun _ => True)
      (fun _ _ _ => trivial) (fun c l id _ => seenAttempt_restoreLoadedAttempt c l id) trivial hnot,
      hunseen, hk]
    rfl
  | some stored =>
    obtain ⟨r, rfl, -, -, hload⟩ := h.loadAttempt hk
    have hmem : (r, stored.finishedAt) ∈ store.attempts.values.filterMap loadAttempt :=
      List.mem_filterMap.2 ⟨stored, Dict.mem_values.2 ⟨_, hk⟩, hload⟩
    have hnodup : ((store.attempts.values.filterMap loadAttempt).map (·.1.attemptId)).Nodup :=
      hkeys ▸ store.attempts.nodup
    have hview := foldl_view_of_mem _ Recovering.seenAttempt (restoreSeen now) (fun _ => True)
      (fun _ _ _ => trivial) (fun c l id _ => seenAttempt_restoreLoadedAttempt c l id)
      (s := c) trivial hnodup hmem
    rw [Option.bind_some, hload]
    dsimp only at hview ⊢
    rw [hview, hunseen, hk]

theorem status_loseLoaded (loaded : AttemptRecord × Option ℚ) :
    (loseLoaded now loaded).1.status.isActive = false := by
  unfold loseLoaded State.loseInFlight
  split_ifs with h
  · rfl
  · exact Bool.eq_false_of_not_eq_true h

theorem loseLoaded_of_idle {loaded : AttemptRecord × Option ℚ}
    (h : loaded.1.status.isActive = false) : loseLoaded now loaded = loaded := by
  unfold loseLoaded
  rw [if_neg (by rw [h]; exact Bool.false_ne_true)]

/-- **A lost attempt comes back as it was saved.** -/
theorem reload_loseLoaded (now : ℚ) {loaded : AttemptRecord × Option ℚ}
    (h : StateStore.reloadAttempt loaded.1 = some loaded.1) :
    StateStore.reloadAttempt (loseLoaded now loaded).1 = some (loseLoaded now loaded).1 := by
  unfold loseLoaded State.loseInFlight
  split_ifs with hactive
  · obtain ⟨⟨hversion, hresult, hdecision, hmembers⟩, hvalid⟩ :=
      StateStore.reloadAttempt_eq_self_iff.1 h
    have hgroup : ∀ g ∈ AttemptRegistry.setGroupState .lost loaded.1.executionGroup,
        ∃ g₀ ∈ loaded.1.executionGroup, g = { g₀ with state := .lost } := by
      intro g hg
      obtain ⟨g₀, hg₀, rfl⟩ := Option.map_eq_some_iff.1 hg
      exact ⟨g₀, hg₀, rfl⟩
    refine StateStore.reloadAttempt_eq_self_iff.2 ⟨⟨hversion, hresult, hdecision, ?_⟩, ?_⟩
    · intro g hg
      obtain ⟨g₀, hg₀, rfl⟩ := hgroup g hg
      exact hmembers g₀ hg₀
    · intro g hg
      obtain ⟨g₀, hg₀, rfl⟩ := hgroup g hg
      exact hvalid g₀ hg₀
  · exact h

/-- What is known of an attempt whose row is loaded. -/
theorem Store.Written.storedSeenAttempt_some (h : store.Written) (now : ℚ)
    (hk : store.attempts.get? id = some stored) : ∃ r,
      r.attemptId = id ∧ r.Identified ∧ StateStore.reloadAttempt r = some r ∧
      Orchestrator.loadAttempt stored = some (r, stored.finishedAt) ∧
      storedSeenAttempt now store id =
        restoreSeen now (r, stored.finishedAt) ⟨none, none, some stored⟩ := by
  obtain ⟨r, hid, hident, hreload, hload⟩ := h.loadAttempt hk
  refine ⟨r, hid, hident, hreload, hload, ?_⟩
  unfold storedSeenAttempt
  rw [hk, Option.bind_some, hload]

theorem storedSeenAttempt_none (now : ℚ) (hk : store.attempts.get? id = none) :
    storedSeenAttempt now store id = ⟨none, none, none⟩ := by
  unfold storedSeenAttempt
  rw [hk]
  rfl

theorem Store.Written.row_attempt (h : store.Written) (now : ℚ)
    (hk : store.attempts.get? id = some stored) : ∃ r stored',
      Orchestrator.loadAttempt stored = some (r, stored.finishedAt) ∧ r.attemptId = id ∧
      r.Identified ∧ (storedSeenAttempt now store id).row = some stored' ∧
      StateStore.reloadAttempt (loseLoaded now (r, stored.finishedAt)).1 =
        some (loseLoaded now (r, stored.finishedAt)).1 ∧
      Orchestrator.loadAttempt stored' = some (loseLoaded now (r, stored.finishedAt)) ∧
      stored' = if r.status.isActive then saveLoaded (loseLoaded now (r, stored.finishedAt))
        else stored := by
  obtain ⟨r, hid, hident, hreload, hload, hseen⟩ := h.storedSeenAttempt_some now hk
  have hlost : StateStore.reloadAttempt (loseLoaded now (r, stored.finishedAt)).1 = _ :=
    reload_loseLoaded now hreload
  rw [hseen, restoreSeen]
  cases hactive : r.status.isActive with
  | true =>
    refine ⟨r, _, hload, hid, hident, rfl, hlost, ?_, (if_pos hactive).symm⟩
    unfold Orchestrator.loadAttempt saveLoaded
    dsimp only
    rw [show StateStore.rowToAttempt _ = _ from (StateStore.bind_saveAttempt.1 hlost).2]
    rfl
  | false =>
    have hidle : ¬ r.status.isActive = true := by rw [hactive]; exact Bool.false_ne_true
    refine ⟨r, stored, hload, hid, hident, rfl, hlost, ?_, (if_neg hidle).symm⟩
    rw [hload, loseLoaded_of_idle hactive]

/-- **Restoring the attempts that a recovery left changes nothing.** -/
theorem storedSeenAttempt_again {store' : Store} (h : store.Written) (h' : store'.Written)
    {now' : ℚ} (hrows : ∀ id, store'.attempts.get? id = (storedSeenAttempt now store id).row)
    (id : String) : storedSeenAttempt now' store' id = storedSeenAttempt now store id := by
  cases hk : store.attempts.get? id with
  | none =>
    rw [storedSeenAttempt_none now hk, storedSeenAttempt_none]
    rw [hrows, storedSeenAttempt_none now hk]
  | some stored =>
    obtain ⟨r, stored', hload, -, -, hrow, -, hload', -⟩ := h.row_attempt now hk
    obtain ⟨r₀, -, -, -, hload₀, hseen⟩ := h.storedSeenAttempt_some now hk
    obtain rfl : r = r₀ := congrArg Prod.fst (Option.some.inj (hload.symm.trans hload₀))
    obtain ⟨r', -, -, -, hload'', hseen'⟩ :=
      h'.storedSeenAttempt_some now' ((hrows id).trans hrow)
    have hpair : (r', stored'.finishedAt) = loseLoaded now (r, stored.finishedAt) :=
      Option.some.inj (hload''.symm.trans hload')
    have hidle : (r', stored'.finishedAt).1.status.isActive = false := by
      rw [hpair]
      exact status_loseLoaded _
    rw [hseen', restoreSeen, if_neg (by rw [hidle]; exact Bool.false_ne_true),
      loseLoaded_of_idle hidle, hpair, ← hrow, hseen]
    rfl

end Attempts

/-! ## The recovered coordinator -/

section Recovered

variable {cfg : Config} {now now' : ℚ} {store : Store} {c : Recovering} {k : String}

/-- The attempts that a recovery inserts. -/
def restoredAttempts (now : ℚ) (store : Store) : List AttemptRecord :=
  (store.attempts.values.filterMap loadAttempt).map fun l => (loseLoaded now l).1

/-- What a recovery makes of a store. -/
structure Recovered (cfg : Config) (now : ℚ) (store : Store) (c : Recovering) : Prop where
  seen : ∀ k, c.seen k = redriveSeen (storedSeen cfg store k)
  seenAttempt : ∀ id, c.seenAttempt id = storedSeenAttempt now store id
  attempts : c.state.attempts = AttemptRegistry.restoreAll (restoredAttempts now store)
  attemptRows : c.store.attempts.keys = store.attempts.keys
  registry : c.state.registry =
    (PersistedRegistry.restoreWorkers { rows := store.workers } store.workers.values now).registry
  workerRows : c.store.workers = store.workers.mapValues fun _ => PersistedRegistry.storedCopy now
  jobs : c.state.jobs = restoreJobs store.jobs
  jobRows : c.store.jobs = store.jobs
  runs : c.state.runs = ∅

theorem keys_foldl_restoreLoadedAttempt {loaded : List (AttemptRecord × Option ℚ)}
    (h : ∀ l ∈ loaded, l.1.attemptId ∈ c.store.attempts.keys) :
    (loaded.foldl (restoreLoadedAttempt now) c).store.attempts.keys = c.store.attempts.keys := by
  induction loaded generalizing c with
  | nil => rfl
  | cons l loaded ih =>
    rw [List.forall_mem_cons] at h
    have hkeys : (restoreLoadedAttempt now c l).store.attempts.keys = c.store.attempts.keys := by
      unfold restoreLoadedAttempt
      dsimp only
      split_ifs
      · obtain ⟨old, hold⟩ := Dict.mem_keys.1 h.1
        exact Dict.keys_set_of_some _ hold
      · rfl
    refine (ih fun l hl => ?_).trans hkeys
    rw [hkeys]
    exact h.2 l hl

/-- **What a recovery makes of a store.** -/
theorem recovered (h : store.Written) (now : ℚ) :
    Recovered cfg now store (recover cfg now store) := by
  let workers := PersistedRegistry.restoreWorkers { rows := store.workers } store.workers.values now
  obtain ⟨c₀, hc₀⟩ : ∃ c₀ : Recovering, c₀ =
    { state := { registry := workers.registry, jobs := restoreJobs store.jobs }
      store := { store with workers := workers.rows } } := ⟨_, rfl⟩
  obtain ⟨c₁, hc₁⟩ : ∃ c₁, c₁ = (loadWorkloads cfg store.workloads).foldl restoreWorkload c₀ :=
    ⟨_, rfl⟩
  obtain ⟨c₂, hc₂⟩ : ∃ c₂, c₂ =
      (store.attempts.values.filterMap loadAttempt).foldl (restoreLoadedAttempt now) c₁ := ⟨_, rfl⟩
  obtain ⟨pending, hpending⟩ : ∃ pending, pending = ((loadWorkloads cfg store.workloads).filter
      fun l => !l.1.state.isTerminal).map (·.1.spec.workloadId) := ⟨_, rfl⟩
  have hrecover : recover cfg now store = pending.foldl redriveRecoveredWorkload c₂ := by
    rw [hc₂, hc₁, hc₀, hpending]
    rfl
  obtain ⟨hrest₁, hstore₁, -⟩ := foldl_restoreWorkload_rest (loadWorkloads cfg store.workloads) c₀
  have hrest₂ := foldl_restoreLoadedAttempt_rest now
    (store.attempts.values.filterMap loadAttempt) c₁
  rw [← hc₁] at hrest₁ hstore₁
  rw [← hc₂] at hrest₂
  -- the workloads are those of the rows until they are driven again
  have hseen₂ : ∀ k, c₂.seen k = storedSeen cfg store k := by
    intro k
    have hseen₁ : c₁.seen k = storedSeen cfg store k := by
      rw [hc₁]
      exact seen_restoreWorkloads h (by rw [hc₀]) (by rw [hc₀]) (by rw [hc₀]) (by rw [hc₀]) k
    rw [← hseen₁]
    unfold Recovering.seen
    rw [hrest₂.state, hrest₂.submittedAt, hrest₂.store]
  have hready : Ready c₂ := by
    refine ⟨fun k r hr => ?_, ?_⟩
    · have hrecord : (c₂.seen k).record = some r := hr
      have htime : c₂.submittedAt.get? k = (c₂.seen k).submittedAt := rfl
      rw [hseen₂] at hrecord
      rw [htime, hseen₂]
      obtain ⟨l, hl, rfl⟩ := Option.map_eq_some_iff.1 hrecord
      refine ⟨h.loadedAt_id hl, ?_⟩
      rw [storedSeen, hl]
      rfl
    · rw [hrest₂.state, hrest₁.state, hc₀]
  have hnodup : pending.Nodup := by
    rw [hpending]
    exact (h.nodup_loaded cfg).sublist (List.filter_sublist.map _)
  have hrest := (foldl_redrive hready hnodup "").1
  rw [← hrecover] at hrest
  have hattempts₁ : c₁.state.attempts = {} := by rw [hrest₁.state, hc₀]
  have hrows₁ : c₁.store.attempts = store.attempts := by rw [hstore₁, hc₀]
  refine ⟨fun k => ?_, fun id => ?_, ?_, ?_, ?_, ?_, ?_, ?_, ?_⟩
  · have hseen := (foldl_redrive hready hnodup k).2
    rw [← hrecover, hseen₂] at hseen
    rw [hseen]
    split_ifs with hk
    · rfl
    · -- what is not driven again is not there, or terminal
      cases hl : loadedAt cfg store k with
      | none =>
        unfold redriveSeen storedSeen
        rw [hl]
        rfl
      | some l =>
        have hterminal : l.1.state.isTerminal = true := by
          by_contra hlive
          refine hk ?_
          rw [hpending, ← h.loadedAt_id hl]
          refine List.mem_map.2 ⟨l, List.mem_filter.2 ⟨?_, ?_⟩, rfl⟩
          · rw [h.mem_loaded, h.loadedAt_id hl]
            exact hl
          · rw [Bool.eq_false_of_not_eq_true hlive]
            rfl
        unfold redriveSeen storedSeen
        rw [hl]
        dsimp only [Option.map_some]
        rw [if_pos hterminal]
  · have hsame : (recover cfg now store).seenAttempt id = c₂.seenAttempt id := by
      unfold Recovering.seenAttempt
      rw [hrest.state, hrest.finishedAt, hrest.store]
    rw [hsame, hc₂]
    refine seenAttempt_restoreAttempts h hattempts₁ ?_ hrows₁ id
    rw [hrest₁.finishedAt, hc₀]
  · have hsame : (recover cfg now store).state.attempts = c₂.state.attempts := by rw [hrest.state]
    rw [hsame, hc₂, attempts_foldl_restoreLoadedAttempt, hattempts₁]
    rfl
  · have hsame : (recover cfg now store).store.attempts = c₂.store.attempts := by rw [hrest.store]
    rw [hsame, hc₂, keys_foldl_restoreLoadedAttempt, hrows₁]
    intro l hl
    rw [hrows₁, ← h.map_loadAttempt]
    exact List.mem_map_of_mem hl
  · rw [hrest.state, hrest₂.state, hrest₁.state, hc₀]
  · rw [hrest.store, hrest₂.store, hstore₁, hc₀]
    exact PersistedRegistry.rows_restoreWorkers h.workers now
  · rw [hrest.state, hrest₂.state, hrest₁.state, hc₀]
  · rw [hrest.store, hrest₂.store, hstore₁, hc₀]
  · rw [hrest.state, hrest₂.state, hrest₁.state, hc₀]

theorem Recovered.row (hc : Recovered cfg now store c) (k : String) :
    c.store.workloads.get? k = (redriveSeen (storedSeen cfg store k)).row :=
  congrArg Seen.row (hc.seen k)

theorem Recovered.attemptRow (hc : Recovered cfg now store c) (id : String) :
    c.store.attempts.get? id = (storedSeenAttempt now store id).row :=
  congrArg SeenAttempt.row (hc.seenAttempt id)

theorem redriveSeen_live {loaded : WorkloadRecord × ℚ} (hl : loadedAt cfg store k = some loaded)
    (hlive : loaded.1.state.isTerminal = false) : redriveSeen (storedSeen cfg store k) =
      { record := some (State.redrive loaded.1), submittedAt := some loaded.2
        row := some { row := StateStore.saveWorkload (State.redrive loaded.1)
                      submittedAt := loaded.2 }
        queued := true } := by
  unfold redriveSeen storedSeen
  rw [hl]
  dsimp only [Option.map_some]
  rw [if_neg (by rw [hlive]; exact Bool.false_ne_true)]

theorem redriveSeen_other
    (h : ∀ loaded, loadedAt cfg store k = some loaded → loaded.1.state.isTerminal = true) :
    redriveSeen (storedSeen cfg store k) = storedSeen cfg store k := by
  unfold redriveSeen storedSeen
  cases hl : loadedAt cfg store k with
  | none => rfl
  | some loaded =>
    dsimp only [Option.map_some]
    rw [if_pos (h loaded hl)]

/-- **A recovery leaves rows of records.** -/
theorem Store.Written.recovered (h : store.Written) (hc : Recovered cfg now store c) :
    c.store.Written := by
  refine ⟨?_, fun k stored hk => ?_, fun id stored hk => ?_⟩
  · rw [hc.workerRows]
    exact h.workers.restored now
  · rw [hc.row] at hk
    by_cases hterminal :
        ∀ loaded, loadedAt cfg store k = some loaded → loaded.1.state.isTerminal = true
    · rw [redriveSeen_other hterminal] at hk
      exact h.workloads k stored hk
    · push Not at hterminal
      obtain ⟨loaded, hl, hlive⟩ := hterminal
      rw [redriveSeen_live hl (Bool.eq_false_of_not_eq_true hlive)] at hk
      obtain rfl := Option.some.inj hk
      exact ⟨_, (congrArg WorkloadSpec.workloadId (spec_redrive _)).trans (h.loadedAt_id hl), rfl⟩
  · rw [hc.attemptRow] at hk
    cases hold : store.attempts.get? id with
    | none =>
      rw [storedSeenAttempt_none now hold] at hk
      cases hk
    | some old =>
      obtain ⟨r, stored', -, hid, hident, hrow, hreload, -, heq⟩ := h.row_attempt now hold
      obtain rfl := Option.some.inj (hk.symm.trans hrow)
      rw [heq]
      split_ifs
      · obtain ⟨hid', hw, hn⟩ := identity_loseLoaded now (r, old.finishedAt)
        have hsaved : StateStore.saveAttempt (loseLoaded now (r, old.finishedAt)).1 =
            some (saveLoaded (loseLoaded now (r, old.finishedAt))).row :=
          StateStore.saveAttempt_eq_some_iff.2 ⟨(StateStore.bind_saveAttempt.1 hreload).1, rfl⟩
        refine ⟨(loseLoaded now (r, old.finishedAt)).1, hid'.trans hid, ⟨?_, ?_⟩, hsaved, ?_⟩
        · rw [hid', hw, hn]
          exact hident.id
        · rw [hn]
          exact hident.pos
        · rw [hreload]
          rfl
      · exact h.attempts id old hold

/-- Two recoveries with the same result: workloads and attempts are seen to be the same, with their
rows, attempts are listed in one order, and workers agree but for the times of their restart. -/
structure SameRecovery (c c' : Recovering) : Prop where
  workload : ∀ k, c.seen k = c'.seen k
  attempt : ∀ id, c.seenAttempt id = c'.seenAttempt id
  listed : ∀ w, c.state.attempts.idsOf w = c'.state.attempts.idsOf w
  jobs : c.state.jobs = c'.state.jobs
  jobRows : c.store.jobs = c'.store.jobs
  registry : WorkerRegistry.Alike c.state.registry c'.state.registry
  workerRow : ∀ k, Option.Rel WorkerInfo.Alike (c.store.workers.get? k) (c'.store.workers.get? k)

/-- The parameters of a workload that is driven again are redacted once more when it is saved. This
changes nothing. -/
def RedactedOnce (cfg : Config) (store : Store) : Prop :=
  ∀ k loaded, loadedAt cfg store k = some loaded → loaded.1.state.isTerminal = false →
    StorableParameters loaded.1.spec.parameters

theorem redrive_redrive (r : WorkloadRecord) :
    State.redrive (State.redrive r) = State.redrive r := by
  unfold State.redrive
  split_ifs <;> rfl

/-- What is loaded of a workload that was driven again. -/
theorem loadedAt_redriven {loaded : WorkloadRecord × ℚ}
    (hc : Recovered cfg now store c) (hl : loadedAt cfg store k = some loaded)
    (hlive : loaded.1.state.isTerminal = false) : loadedAt cfg c.store k =
      (StateStore.reloadWorkload cfg.floatRepr (State.redrive loaded.1)).map
        fun r => (r, loaded.2) := by
  rw [loadedAt, hc.row, redriveSeen_live hl hlive]
  rfl

/-- **A record that was loaded and is driven again comes back as it is saved**, when redacting it
once more changes nothing. -/
theorem reload_redrive {loaded : WorkloadRecord × ℚ} (h : store.Written)
    (hl : loadedAt cfg store k = some loaded) (hp : StorableParameters loaded.1.spec.parameters) :
    StateStore.reloadWorkload cfg.floatRepr (State.redrive loaded.1) =
      some (State.redrive loaded.1) := by
  obtain ⟨stored, hk, hload⟩ := Option.bind_eq_some_iff.1 hl
  obtain ⟨r₀, -, hrow⟩ := h.workloads k stored hk
  obtain ⟨hreload, -⟩ := loadWorkload_some hload hrow
  have hdurable := (StateStore.durable_reloadWorkload_iff hreload).2 hp
  have hclone : loaded.1.speculativeCloned = false := StateStore.reloadWorkload_cloned hreload
  have hredriven : (State.redrive loaded.1).Durable cfg.floatRepr := by
    refine ⟨?_, ?_, ?_, ?_, ?_⟩
    · rw [spec_redrive]
      exact hdurable.parameters
    · rw [spec_redrive]
      exact hdurable.wellFormed
    · rw [spec_redrive]
      exact hdurable.numbers
    · unfold State.redrive
      split_ifs
      · exact hdurable.decision
      · exact fun d hd => absurd hd (Option.not_mem_none d)
    · unfold State.redrive
      split_ifs <;> exact hdurable.result
  rw [StateStore.reloadWorkload_eq_self_iff.2 hredriven]
  unfold State.redrive
  split_ifs <;> rw [← hclone]

/-- **Recovering once more changes nothing of a workload** when no parameter is redacted further. -/
theorem seen_again (h : store.WellFormed cfg) (hc : Recovered cfg now store c)
    (hredacted : RedactedOnce cfg store) (k : String) :
    redriveSeen (storedSeen cfg c.store k) = redriveSeen (storedSeen cfg store k) := by
  by_cases hterminal :
      ∀ loaded, loadedAt cfg store k = some loaded → loaded.1.state.isTerminal = true
  · have hrow : c.store.workloads.get? k = store.workloads.get? k := by
      rw [hc.row, redriveSeen_other hterminal]
      rfl
    have hsame : storedSeen cfg c.store k = storedSeen cfg store k := by
      unfold storedSeen loadedAt
      rw [hrow]
    rw [hsame]
  · push Not at hterminal
    obtain ⟨loaded, hl, hlive⟩ := hterminal
    have hlive := Bool.eq_false_of_not_eq_true hlive
    have hreload := reload_redrive h.toWritten hl (hredacted k loaded hl hlive)
    have hagain : loadedAt cfg c.store k = some (State.redrive loaded.1, loaded.2) := by
      rw [loadedAt_redriven hc hl hlive, hreload, Option.map_some]
    have hlive' : (State.redrive loaded.1).state.isTerminal = false := by
      unfold State.redrive
      rw [if_neg (by rw [hlive]; exact Bool.false_ne_true)]
      rfl
    rw [redriveSeen_live hl hlive, redriveSeen_live hagain hlive', redrive_redrive]

/-- **A second recovery gives the same result** when no parameter is redacted further. -/
theorem sameRecovery (h : store.WellFormed cfg) (hredacted : RedactedOnce cfg store)
    (hc : Recovered cfg now store c) (now' : ℚ) : SameRecovery (recover cfg now' c.store) c := by
  have hwritten := h.toWritten
  have hwritten' := hwritten.recovered hc
  have hagain : Recovered cfg now' c.store (recover cfg now' c.store) := recovered hwritten' now'
  refine ⟨fun k => ?_, fun id => ?_, fun w => ?_, ?_, ?_, ?_, fun k => ?_⟩
  · rw [hagain.seen, hc.seen, seen_again h hc hredacted]
  · rw [hagain.seenAttempt, hc.seenAttempt,
      storedSeenAttempt_again hwritten hwritten' hc.attemptRow]
  · have hidentified : ∀ {now : ℚ} {store : Store}, store.Written →
        ∀ r ∈ restoredAttempts now store, r.Identified := by
      intro now store h r hr
      obtain ⟨l, hl, rfl⟩ := List.mem_map.1 hr
      obtain ⟨stored, hstored, hload⟩ := List.mem_filterMap.1 hl
      obtain ⟨id, hid⟩ := Dict.mem_values.1 hstored
      obtain ⟨r, -, hident, -, hload'⟩ := h.loadAttempt hid
      obtain rfl := Option.some.inj (hload.symm.trans hload')
      obtain ⟨hid', hw, hn⟩ := identity_loseLoaded now (r, stored.finishedAt)
      exact ⟨by rw [hid', hw, hn]; exact hident.id, by rw [hn]; exact hident.pos⟩
    have hids : ∀ {now : ℚ} {store : Store}, store.Written →
        (restoredAttempts now store).map (·.attemptId) = store.attempts.keys := by
      intro now store h
      rw [← h.map_loadAttempt, restoredAttempts, List.map_map]
      exact List.map_congr_left fun l _ => (identity_loseLoaded _ l).1
    rw [hagain.attempts, hc.attempts]
    refine AttemptRegistry.idsOf_restoreAll_congr (hidentified hwritten') (hidentified hwritten)
      ?_ w
    rw [hids hwritten', hids hwritten, hc.attemptRows]
  · rw [hagain.jobs, hc.jobs, hc.jobRows]
  · exact hagain.jobRows
  · rw [hagain.registry, hc.registry, hc.workerRows]
    exact PersistedRegistry.alike_restoreWorkers store.workers now now'
  · rw [hagain.workerRows, hc.workerRows, Dict.get?_mapValues, Dict.get?_mapValues]
    cases store.workers.get? k with
    | none => exact .none
    | some info => exact .some (PersistedRegistry.alike_storedCopy info now now')

/-- A workload whose parameters are redacted further does not come back as it was. -/
theorem redactedOnce_of_same (h : store.Written) (hc : Recovered cfg now store c)
    (hsame : SameRecovery (recover cfg now' c.store) c) : RedactedOnce cfg store := by
  intro k loaded hl hlive
  have hagain : Recovered cfg now' c.store (recover cfg now' c.store) :=
    recovered (h.recovered hc) now'
  have hseen := hsame.workload k
  rw [hagain.seen, hc.seen, redriveSeen_live hl hlive] at hseen
  cases hl' : loadedAt cfg c.store k with
  | none =>
    rw [redriveSeen_other (fun l h => by rw [hl'] at h; cases h)] at hseen
    have hnone : (storedSeen cfg c.store k).record = none := by rw [storedSeen, hl']; rfl
    rw [hseen] at hnone
    cases hnone
  | some loaded' =>
    have hrecord : (State.redrive loaded'.1).spec = (State.redrive loaded.1).spec := by
      cases hlive' : loaded'.1.state.isTerminal with
      | false =>
        rw [redriveSeen_live hl' hlive'] at hseen
        exact congrArg WorkloadRecord.spec (Option.some.inj (congrArg Seen.record hseen))
      | true =>
        rw [redriveSeen_other (fun l h => by rw [hl'] at h; rw [← Option.some.inj h, hlive'])]
          at hseen
        have := congrArg Seen.record hseen
        rw [storedSeen, hl'] at this
        rw [spec_redrive]
        exact congrArg WorkloadRecord.spec (Option.some.inj this)
    rw [loadedAt_redriven hc hl hlive] at hl'
    obtain ⟨r', hr', rfl⟩ := Option.map_eq_some_iff.1 hl'
    have hparameters := StateStore.reloadWorkload_parameters hr'
    rw [spec_redrive, spec_redrive] at hrecord
    rw [spec_redrive] at hparameters
    dsimp only at hrecord
    rw [hrecord] at hparameters
    exact StateStore.stored_parameters_eq_iff.1 hparameters.symm

/-! ## What a recovery does -/

/-- What is asked of a recovery. -/
structure RecoversFrom (cfg : Config) (now : ℚ) (store : Store) (c : Recovering) : Prop where
  /-- A workload that was terminal keeps its record and its row, and is not queued. -/
  terminal : ∀ k loaded, loadedAt cfg store k = some loaded → loaded.1.state.isTerminal = true →
    c.seen k = storedSeen cfg store k
  /-- Every other one is submitted without a placement, with the time of its submission, and is
  queued once. -/
  redriven : ∀ k loaded, loadedAt cfg store k = some loaded → loaded.1.state.isTerminal = false →
    c.state.workloads.get? k =
        some { loaded.1 with state := .submitted, placementDecision := none } ∧
      c.submittedAt.get? k = some loaded.2 ∧ c.state.queued.toList.count k = 1
  /-- No attempt is in flight. -/
  idle : ∀ id r, c.state.attempts.getAttempt id = some r → r.status.isActive = false
  /-- No attempt in the store is in flight. -/
  idleRow : ∀ id stored, c.store.attempts.get? id = some stored →
    ∃ loaded, loadAttempt stored = some loaded ∧ loaded.1.status.isActive = false
  /-- An attempt that was not in flight is unchanged. -/
  ended : ∀ id stored loaded, store.attempts.get? id = some stored →
    loadAttempt stored = some loaded → loaded.1.status.isActive = false →
    c.seenAttempt id = ⟨some loaded.1, some loaded.2, some stored⟩
  /-- No worker is eligible until it sends a heartbeat or registers. -/
  unverified : ∀ x bs s' info p, Along (step cfg) (Issued x) c.state bs →
    runSteps cfg c.state bs = some s' → s'.registry.workers.get? x = some info →
    Placement.workerProfile s'.attempts info = some p →
    ∀ ctx spec, Placement.eligible cfg.text ctx spec p = false
  /-- A second recovery gives the same result. -/
  again : ∀ now', SameRecovery (recover cfg now' c.store) c

/-- After a recovery all workers are unverified. -/
theorem unverifiedInv_recovered (h : store.Written) (hc : Recovered cfg now store c) (x : String) :
    UnverifiedInv x c.state := by
  have hnone : ∀ w, c.state.runs.get? w = none := by
    intro w
    rw [hc.runs]
    rfl
  have hfiled : FiledIds c.state.attempts := by
    intro id r hr
    have hrecord : (c.seenAttempt id).record = some r := hr
    rw [hc.seenAttempt] at hrecord
    cases hk : store.attempts.get? id with
    | none =>
      rw [storedSeenAttempt_none now hk] at hrecord
      cases hrecord
    | some stored =>
      obtain ⟨r₀, hid, -, -, -, hseen⟩ := h.storedSeenAttempt_some now hk
      rw [hseen] at hrecord
      obtain rfl := Option.some.inj hrecord
      exact (identity_loseLoaded now _).1.trans hid
  have hworker : WorkerRegistry.Unverified x c.state.registry := by
    rw [hc.registry]
    refine foldl_invariant
      (fun p : PersistedRegistry => WorkerRegistry.Unverified x p.registry) (fun p info hp => ?_)
      WorkerRegistry.unverified_empty
    unfold PersistedRegistry.registerWorker
    split
    · rename_i hr
      exact hp.restored hr rfl
    · exact hp
  refine ⟨⟨fun w f d r t hpc => ?_, hfiled, fun w f d hat => ?_, fun w f d r t hpc => ?_⟩, hworker,
    fun w f d hat => absurd hat (not_atAttempt_of_returned (.inl (hnone w)))⟩
  · rw [hnone] at hpc
    cases hpc
  · exact absurd hat (not_atAttempt_of_returned (.inl (hnone w)))
  · rw [hnone] at hpc
    cases hpc

/-- **A recovery does what is asked of it exactly when** redacting the parameters of the workloads
that are driven again once more changes nothing. -/
theorem crash_recovery_iff (cfg : Config) (now : ℚ) (store : Store) (h : store.WellFormed cfg) :
    RecoversFrom cfg now store (recover cfg now store) ↔ RedactedOnce cfg store := by
  have hwritten := h.toWritten
  have hc : Recovered cfg now store (recover cfg now store) := recovered hwritten now
  have hidle : ∀ id r, (recover cfg now store).state.attempts.getAttempt id = some r →
      r.status.isActive = false := by
    intro id r hr
    have hrecord : ((recover cfg now store).seenAttempt id).record = some r := hr
    rw [hc.seenAttempt] at hrecord
    cases hk : store.attempts.get? id with
    | none =>
      rw [storedSeenAttempt_none now hk] at hrecord
      cases hrecord
    | some stored =>
      obtain ⟨r₀, -, -, -, -, hseen⟩ := hwritten.storedSeenAttempt_some now hk
      rw [hseen] at hrecord
      obtain rfl := Option.some.inj hrecord
      exact status_loseLoaded _
  constructor
  · exact fun hrecovers => redactedOnce_of_same hwritten hc (hrecovers.again 0)
  · intro hredacted
    refine ⟨fun k loaded hl hterminal => ?_, fun k loaded hl hlive => ?_, hidle,
      fun id stored hk => ?_, fun id stored loaded hk hload hactive => ?_,
      fun x bs s' info p hbs hrun hinfo hp ctx spec => ?_, sameRecovery h hredacted hc⟩
    · rw [hc.seen]
      refine redriveSeen_other fun l hl' => ?_
      rwa [Option.some.inj (hl'.symm.trans hl)]
    · have hseen := hc.seen k
      rw [redriveSeen_live hl hlive] at hseen
      have hrecord : State.redrive loaded.1 =
          { loaded.1 with state := .submitted, placementDecision := none } := by
        unfold State.redrive
        rw [if_neg (by rw [hlive]; exact Bool.false_ne_true)]
      have hqueued : k ∈ (recover cfg now store).state.queued :=
        of_decide_eq_true (congrArg Seen.queued hseen)
      refine ⟨hrecord ▸ congrArg Seen.record hseen, congrArg Seen.submittedAt hseen, ?_⟩
      exact List.count_eq_one_of_mem (PySet.nodup _) hqueued
    · rw [hc.attemptRow] at hk
      cases hold : store.attempts.get? id with
      | none =>
        rw [storedSeenAttempt_none now hold] at hk
        cases hk
      | some old =>
        obtain ⟨r, stored', -, -, -, hrow, -, hload, -⟩ := hwritten.row_attempt now hold
        obtain rfl := Option.some.inj (hk.symm.trans hrow)
        exact ⟨_, hload, status_loseLoaded _⟩
    · obtain ⟨r, -, -, -, hload', hseen⟩ := hwritten.storedSeenAttempt_some now hk
      obtain rfl := Option.some.inj (hload'.symm.trans hload)
      rw [hc.seenAttempt, hseen, restoreSeen, loseLoaded_of_idle hactive,
        if_neg (by rw [hactive]; exact Bool.false_ne_true)]
    · exact unverified_not_eligible (unverifiedInv_recovered hwritten hc x) hbs hrun hinfo hp ctx
        spec

/-- The store of a coordinator that stopped while it ran a workload with the parameter. -/
def recoverySample (value : Json) : Store where
  workers := (∅ : Dict String WorkerInfo).set "a" (sampleWorker "a")
  workloads := (∅ : Dict String StoredWorkload).set "w"
    { row := StateStore.saveWorkload { spec := parameterSample "note" value, state := .placed }
      submittedAt := 1 }
  attempts := (∅ : Dict String StoredAttempt).set (makeAttemptId "w" 1)
    { row := StateStore.attemptRow { AttemptRegistry.sampleAttempt "w" 1 with status := .running }
      finishedAt := none }

theorem wellFormed_recoverySample (value : Json)
    (h : (StateStore.reloadWorkload (sampleConfig 1).floatRepr
      { spec := parameterSample "note" value, state := .placed }).isSome = true) :
    (recoverySample value).WellFormed (sampleConfig 1) := by
  refine ⟨⟨fun k info hk => ?_, fun k stored hk => ?_, fun k stored hk => ?_⟩,
    fun k stored hk => ?_⟩
  all_goals
    unfold recoverySample at hk
    rw [Dict.get?_set] at hk
    split_ifs at hk with hkey
    swap
    · cases hk
    obtain rfl := Option.some.inj hk
    subst hkey
  · exact ⟨rfl, "a", by decide +kernel⟩
  · exact ⟨_, rfl, rfl⟩
  · exact ⟨_, rfl, ⟨rfl, Nat.one_pos⟩, StateStore.saveAttempt_eq_some_iff.2 ⟨rfl, rfl⟩,
      by decide +kernel⟩
  · unfold loadWorkload
    rw [Option.isSome_map]
    exact h

/-- What is loaded of the workload. -/
theorem loadedAt_recoverySample {value : Json} {loaded : WorkloadRecord × ℚ} {k : String}
    (h : loadedAt (sampleConfig 1) (recoverySample value) k = some loaded) :
    StateStore.reloadWorkload (sampleConfig 1).floatRepr
      { spec := parameterSample "note" value, state := .placed } = some loaded.1 := by
  obtain ⟨stored, hk, hload⟩ := Option.bind_eq_some_iff.1 h
  unfold recoverySample at hk
  rw [Dict.get?_set] at hk
  split_ifs at hk
  · obtain rfl := Option.some.inj hk
    exact (loadWorkload_some hload rfl).1
  · cases hk

/-- A workload with a plain text is recovered. -/
theorem crash_recovery_plain : RecoversFrom (sampleConfig 1) 2 (recoverySample (.str "a"))
    (recover (sampleConfig 1) 2 (recoverySample (.str "a"))) := by
  have hreload : (StateStore.reloadWorkload (sampleConfig 1).floatRepr
      { spec := parameterSample "note" (.str "a"), state := .placed }).map
        (fun r => decide (StorableParameters r.spec.parameters)) = some true := by
    decide +kernel
  obtain ⟨r, hr, hstorable⟩ := Option.map_eq_some_iff.1 hreload
  refine (crash_recovery_iff _ _ _ (wellFormed_recoverySample _ (by rw [hr]; rfl))).2
    fun k loaded hl _ => ?_
  obtain rfl := Option.some.inj (hr.symm.trans (loadedAt_recoverySample hl))
  exact of_decide_eq_true hstorable

/-- A quoted value that is followed by more text is redacted in two steps: a recovery rewrites the
parameters that it stored, and the next one reads something else. -/
theorem quoted_value_redacted_twice :
    ¬ ∀ (cfg : Config) (now : ℚ) (store : Store), store.WellFormed cfg →
      RecoversFrom cfg now store (recover cfg now store) := by
  intro hclaim
  have hreload : (StateStore.reloadWorkload (sampleConfig 1).floatRepr
      { spec := parameterSample "note" (.str "token='a'b"), state := .placed }).map
        (fun r => (r.state, decide (StorableParameters r.spec.parameters))) =
          some (.placed, false) := by
    decide +kernel
  obtain ⟨r, hr, hpair⟩ := Option.map_eq_some_iff.1 hreload
  obtain ⟨hstate, hstorable⟩ := Prod.mk.inj hpair
  have hwell := wellFormed_recoverySample (.str "token='a'b") (by rw [hr]; rfl)
  have hredacted := redactedOnce_of_same hwell.toWritten (recovered hwell.toWritten 2)
    ((hclaim _ 2 _ hwell).again 0)
  have hl : loadedAt (sampleConfig 1) (recoverySample (.str "token='a'b")) "w" = some (r, 1) := by
    unfold loadedAt recoverySample
    rw [Dict.get?_set, if_pos rfl, Option.bind_some]
    exact congrArg (Option.map fun r => (r, (1 : ℚ))) hr
  have hlive : r.state.isTerminal = false := by rw [hstate]; rfl
  exact of_decide_eq_false hstorable (hredacted "w" _ hl hlive)

end Recovered

end Aidars.Orchestrator
