import Aidars.Foundations.Collections
import Aidars.Foundations.Run

/-!
# Write-through tables with snapshots

A registry keeps records in memory under a lock and copies them to rows. A call runs its critical
section, takes snapshots of records in it, and writes them: some still under the lock, the others
after it has released it, when other calls may have changed the records again. `Table` describes the
calls of such a registry, and `step` interleaves their critical sections and their writes.

Each record has a version, which grows when a critical section changes the record. A snapshot
carries the version it was taken of, and a row the version of the snapshot that was written to it
last. No step reads a version. If snapshots are taken of what the critical section leaves
(`Table.Exact`), a row whose version is that of the record holds the record (`FitsInv`). If moreover
no write puts a snapshot over a newer one, and every call takes snapshots of the records it changes
(`InOrder`), the rows are the records whenever all calls have finished (`agrees_of_finished`).
-/

namespace Aidars

/-- The calls `ο` of a registry with memory `σ`, whose records `ν` are filed under keys `κ`. A write
of `none` deletes the row. -/
structure Table (σ κ ν ο : Type*) where
  view : σ → κ → Option ν
  commit : ο → σ → σ
  lockedWrites : ο → σ → List (κ × Option ν)
  writes : ο → σ → List (κ × Option ν)

/-- A snapshot of a record, or of its absence, with the version it was taken of. -/
structure Snapshot (κ ν : Type*) where
  key : κ
  record : Option ν
  version : ℕ
  deriving DecidableEq

/-- The memory, the rows, and the snapshots that each call has yet to write. -/
structure Written (σ κ ν : Type*) where
  memory : σ
  rows : Dict κ ν
  calls : List (List (Snapshot κ ν)) := []
  version : κ → ℕ := fun _ => 0
  stored : κ → ℕ := fun _ => 0

/-- A critical section of a new call, or the next write of a call under way. -/
inductive WriteStep (ο : Type*)
  | call (op : ο)
  | write (i : ℕ)
  deriving DecidableEq

variable {σ κ ν ο : Type*} [DecidableEq κ]

namespace Written

/-- Write a snapshot to its row. -/
def store (c : Written σ κ ν) (snap : Snapshot κ ν) : Written σ κ ν :=
  { c with
    rows := match snap.record with
      | some v => c.rows.set snap.key v
      | none => c.rows.erase snap.key
    stored := Function.update c.stored snap.key snap.version }

/-- The next write of a call. -/
def write (c : Written σ κ ν) (i : ℕ) : Option (Written σ κ ν) :=
  match c.calls[i]? with
  | some (snap :: rest) => some { c.store snap with calls := c.calls.set i rest }
  | _ => none

/-- No call has writes left. -/
def Finished (c : Written σ κ ν) : Prop := ∀ snaps ∈ c.calls, snaps = []

instance (c : Written σ κ ν) : Decidable c.Finished :=
  inferInstanceAs (Decidable (∀ snaps ∈ c.calls, snaps = []))

/-- The next write of a call does not put a snapshot over a newer one. -/
def WritesForward (c : Written σ κ ν) (i : ℕ) : Prop :=
  match c.calls[i]? with
  | some (snap :: _) => c.stored snap.key ≤ snap.version
  | _ => True

instance (c : Written σ κ ν) (i : ℕ) : Decidable (c.WritesForward i) := by
  unfold WritesForward
  split <;> infer_instance

end Written

namespace Table

open Written

variable (T : Table σ κ ν ο)

/-- The rows are the records. -/
def Agrees (c : Written σ κ ν) : Prop := ∀ k, c.rows.get? k = T.view c.memory k

/-- Calls that are allowed keep an invariant of the memory, and take snapshots of what their
critical section leaves. -/
structure Exact (Inv : σ → Prop) (Allowed : ο → Prop) : Prop where
  keeps : ∀ op m, Inv m → Allowed op → Inv (T.commit op m)
  exact : ∀ op m, Inv m → Allowed op → ∀ e ∈ T.lockedWrites op m ++ T.writes op m,
    e.2 = T.view (T.commit op m) e.1

/-- The calls are allowed. -/
def Calls (Allowed : ο → Prop) (_ : Written σ κ ν) : WriteStep ο → Prop
  | .call op => Allowed op
  | .write _ => True

/-- What a snapshot is good for: it is not newer than the record, and if it is of the version of the
record, it is the record. -/
def Fits (c : Written σ κ ν) (k : κ) (record : Option ν) (version : ℕ) : Prop :=
  version ≤ c.version k ∧ (version = c.version k → record = T.view c.memory k)

/-- The rows and the snapshots fit. -/
structure FitsInv (Inv : σ → Prop) (c : Written σ κ ν) : Prop where
  memory : Inv c.memory
  rows : ∀ k, T.Fits c k (c.rows.get? k) (c.stored k)
  calls : ∀ snaps ∈ c.calls, ∀ snap ∈ snaps, T.Fits c snap.key snap.record snap.version

variable {T} {Inv : σ → Prop} {Allowed : ο → Prop} {c c' : Written σ κ ν} {a : WriteStep ο} {k : κ}

omit [DecidableEq κ] in
theorem Fits.congr {record : Option ν} {version : ℕ} (h : T.Fits c k record version)
    (hmemory : c'.memory = c.memory) (hversion : c'.version = c.version) :
    T.Fits c' k record version := by
  unfold Fits
  rw [hmemory, hversion]
  exact h

theorem store_memory (c : Written σ κ ν) (snap : Snapshot κ ν) :
    (c.store snap).memory = c.memory := rfl

theorem store_version (c : Written σ κ ν) (snap : Snapshot κ ν) :
    (c.store snap).version = c.version := rfl

theorem store_calls (c : Written σ κ ν) (snap : Snapshot κ ν) :
    (c.store snap).calls = c.calls := rfl

theorem get?_store (c : Written σ κ ν) (snap : Snapshot κ ν) :
    (c.store snap).rows.get? k = if k = snap.key then snap.record else c.rows.get? k := by
  unfold store
  dsimp only
  cases hr : snap.record with
  | none => rw [Dict.get?_erase]
  | some v => rw [Dict.get?_set]

/-- A write of a snapshot that fits keeps the rows fitting. -/
theorem fits_store {snap : Snapshot κ ν} (hrows : ∀ k, T.Fits c k (c.rows.get? k) (c.stored k))
    (hsnap : T.Fits c snap.key snap.record snap.version) (k : κ) :
    T.Fits (c.store snap) k ((c.store snap).rows.get? k) ((c.store snap).stored k) := by
  refine Fits.congr ?_ (store_memory c snap) (store_version c snap)
  rw [get?_store]
  unfold store
  dsimp only
  rw [Function.update_apply]
  split_ifs with hk
  · rw [hk]
    exact hsnap
  · exact hrows k

theorem foldl_store (snaps : List (Snapshot κ ν)) (c : Written σ κ ν) :
    (snaps.foldl store c).memory = c.memory ∧ (snaps.foldl store c).version = c.version ∧
      (snaps.foldl store c).calls = c.calls := by
  induction snaps generalizing c with
  | nil => exact ⟨rfl, rfl, rfl⟩
  | cons snap snaps ih =>
    obtain ⟨hm, hv, hc⟩ := ih (c.store snap)
    exact ⟨hm.trans (store_memory c snap), hv.trans (store_version c snap),
      hc.trans (store_calls c snap)⟩

theorem fits_foldl_store {snaps : List (Snapshot κ ν)}
    (hrows : ∀ k, T.Fits c k (c.rows.get? k) (c.stored k))
    (hsnaps : ∀ snap ∈ snaps, T.Fits c snap.key snap.record snap.version) (k : κ) :
    T.Fits (snaps.foldl store c) k ((snaps.foldl store c).rows.get? k)
      ((snaps.foldl store c).stored k) := by
  induction snaps generalizing c with
  | nil => exact hrows k
  | cons snap snaps ih =>
    refine ih (fits_store hrows (hsnaps snap List.mem_cons_self)) fun snap' hsnap' => ?_
    exact (hsnaps snap' (List.mem_cons_of_mem snap hsnap')).congr (store_memory c snap)
      (store_version c snap)

theorem fitsInv_write {i : ℕ} (hc : FitsInv T Inv c) (h : c.write i = some c') :
    FitsInv T Inv c' := by
  unfold Written.write at h
  split at h
  · rename_i snap rest hcall
    obtain rfl := Option.some.inj h
    have hmem : snap :: rest ∈ c.calls := List.mem_of_getElem? hcall
    have hsnap := hc.calls _ hmem snap List.mem_cons_self
    refine ⟨hc.memory, fun k => (fits_store hc.rows hsnap k).congr rfl rfl,
      fun snaps hsnaps s hs => ?_⟩
    refine Fits.congr ?_ (store_memory c snap) (store_version c snap)
    rcases List.mem_or_eq_of_mem_set hsnaps with hold | rfl
    · exact hc.calls snaps hold s hs
    · exact hc.calls _ hmem s (List.mem_cons_of_mem snap hs)
  · cases h

theorem fitsInv_init {m : σ} {rows : Dict κ ν} (hm : Inv m)
    (hrows : ∀ k, rows.get? k = T.view m k) : FitsInv T Inv { memory := m, rows } :=
  ⟨hm, fun k => ⟨Nat.le_refl _, fun _ => hrows k⟩, fun _ h => absurd h List.not_mem_nil⟩

/-! ## Steps -/

section Steps

variable [DecidableEq ν]

/-- The versions after the memory has changed. -/
def newVersion (T : Table σ κ ν ο) (c : Written σ κ ν) (m : σ) (k : κ) : ℕ :=
  if T.view m k = T.view c.memory k then c.version k else c.version k + 1

/-- The critical section of a call, with its writes under the lock. -/
def call (T : Table σ κ ν ο) (c : Written σ κ ν) (op : ο) : Written σ κ ν :=
  let version := T.newVersion c (T.commit op c.memory)
  let snap := fun e : κ × Option ν => Snapshot.mk e.1 e.2 (version e.1)
  let c' := ((T.lockedWrites op c.memory).map snap).foldl store
    { c with memory := T.commit op c.memory, version }
  { c' with calls := c.calls ++ [(T.writes op c.memory).map snap] }

/-- A step of the registry. -/
def step (T : Table σ κ ν ο) (c : Written σ κ ν) : WriteStep ο → Option (Written σ κ ν)
  | .call op => some (T.call c op)
  | .write i => c.write i

omit [DecidableEq κ] in
/-- A version that has not grown is that of an unchanged record. -/
theorem Fits.newVersion {record : Option ν} {version : ℕ} (h : T.Fits c k record version) (m : σ)
    (hmemory : c'.memory = m) (hversion : c'.version = T.newVersion c m) :
    T.Fits c' k record version := by
  unfold Fits at *
  rw [hmemory, hversion]
  unfold Table.newVersion
  split_ifs with hk
  · rw [hk]
    exact h
  · exact ⟨by omega, fun he => by omega⟩

theorem fits_taken (hT : T.Exact Inv Allowed) {op : ο} (hc : FitsInv T Inv c) (hop : Allowed op)
    {e : κ × Option ν} (he : e ∈ T.lockedWrites op c.memory ++ T.writes op c.memory)
    (hmemory : c'.memory = T.commit op c.memory)
    (hversion : c'.version = T.newVersion c (T.commit op c.memory)) :
    T.Fits c' e.1 e.2 (T.newVersion c (T.commit op c.memory) e.1) := by
  unfold Fits
  rw [hmemory, hversion]
  exact ⟨Nat.le_refl _, fun _ => hT.exact op c.memory hc.memory hop e he⟩

theorem fitsInv_call (hT : T.Exact Inv Allowed) {op : ο} (hc : FitsInv T Inv c)
    (hop : Allowed op) : FitsInv T Inv (T.call c op) := by
  let m := T.commit op c.memory
  let c₁ : Written σ κ ν := { c with memory := m, version := T.newVersion c m }
  let snap := fun e : κ × Option ν => Snapshot.mk e.1 e.2 (T.newVersion c m e.1)
  have hrows₁ : ∀ k, T.Fits c₁ k (c₁.rows.get? k) (c₁.stored k) :=
    fun k => (hc.rows k).newVersion m rfl rfl
  have hlocked : ∀ s ∈ (T.lockedWrites op c.memory).map snap,
      T.Fits c₁ s.key s.record s.version := by
    intro s hs
    obtain ⟨e, he, rfl⟩ := List.mem_map.1 hs
    exact fits_taken hT hc hop (List.mem_append_left _ he) rfl rfl
  obtain ⟨hm, hv, -⟩ := foldl_store ((T.lockedWrites op c.memory).map snap) c₁
  have hmemory : (T.call c op).memory = m := hm
  have hversion : (T.call c op).version = T.newVersion c m := hv
  refine ⟨?_, fun k => ?_, fun snaps hsnaps s hs => ?_⟩
  · rw [hmemory]
    exact hT.keeps op c.memory hc.memory hop
  · exact (fits_foldl_store hrows₁ hlocked k).congr rfl rfl
  · rcases List.mem_append.1 hsnaps with hold | hnew
    · exact (hc.calls snaps hold s hs).newVersion m hmemory hversion
    · obtain rfl := List.mem_singleton.1 hnew
      obtain ⟨e, he, rfl⟩ := List.mem_map.1 hs
      exact fits_taken hT hc hop (List.mem_append_right _ he) hmemory hversion

theorem fitsInv_step (hT : T.Exact Inv Allowed) (hc : FitsInv T Inv c) (ha : Calls Allowed c a)
    (h : T.step c a = some c') : FitsInv T Inv c' := by
  cases a with
  | call op =>
    obtain rfl := Option.some.inj h
    exact fitsInv_call hT hc ha
  | write i => exact fitsInv_write hc h

/-! ## Writes in order -/

variable (T) in
/-- The call takes a snapshot of each record that it changes, and the write does not put a snapshot
over a newer one. -/
def InOrder (c : Written σ κ ν) : WriteStep ο → Prop
  | .call op => ∀ k, T.view (T.commit op c.memory) k ≠ T.view c.memory k →
      ∃ e ∈ T.lockedWrites op c.memory ++ T.writes op c.memory, e.1 = k
  | .write i => c.WritesForward i

/-- The row of a record is of its version, or a snapshot of its version is on the way. -/
def Pending (c : Written σ κ ν) : Prop :=
  ∀ k, c.stored k = c.version k ∨
    ∃ snaps ∈ c.calls, ∃ snap ∈ snaps, snap.key = k ∧ snap.version = c.version k

omit [DecidableEq ν] in
/-- Writes under the lock are of the versions that the critical section leaves. -/
theorem stored_foldl_store {snaps : List (Snapshot κ ν)} {version : κ → ℕ}
    (h : ∀ snap ∈ snaps, snap.version = version snap.key) (k : κ) :
    (snaps.foldl store c).stored k =
      if k ∈ snaps.map (·.key) then version k else c.stored k := by
  induction snaps generalizing c with
  | nil => rfl
  | cons snap snaps ih =>
    rw [List.foldl_cons, ih fun s hs => h s (List.mem_cons_of_mem snap hs)]
    have hstore : (c.store snap).stored k =
        if k = snap.key then snap.version else c.stored k := Function.update_apply ..
    simp only [hstore, List.map_cons, List.mem_cons]
    by_cases hk : k = snap.key
    · have hversion : snap.version = version k := hk ▸ h snap List.mem_cons_self
      simp only [hk, true_or, if_true, hversion, ite_self]
    · simp only [hk, if_false, false_or]

theorem pending_call {op : ο} (hc : Pending c) (ho : T.InOrder c (.call op)) :
    Pending (T.call c op) := by
  let m := T.commit op c.memory
  let snap := fun e : κ × Option ν => Snapshot.mk e.1 e.2 (T.newVersion c m e.1)
  have hversion : (T.call c op).version = T.newVersion c m :=
    (foldl_store ((T.lockedWrites op c.memory).map snap)
      { c with memory := m, version := T.newVersion c m }).2.1
  have hstored : ∀ k, (T.call c op).stored k =
      if k ∈ ((T.lockedWrites op c.memory).map snap).map (·.key) then T.newVersion c m k
      else c.stored k := by
    refine fun k => stored_foldl_store (fun s hs => ?_) k
    obtain ⟨e, -, rfl⟩ := List.mem_map.1 hs
    rfl
  intro k
  rw [hversion, hstored k]
  split_ifs with hlocked
  · exact .inl rfl
  · by_cases hk : T.view m k = T.view c.memory k
    · rw [Table.newVersion, if_pos hk]
      refine (hc k).imp_right ?_
      rintro ⟨snaps, hsnaps, s, hs, hkey⟩
      exact ⟨snaps, List.mem_append_left _ hsnaps, s, hs, hkey⟩
    · -- the call changes the record, so it takes a snapshot of it
      obtain ⟨e, he, rfl⟩ := ho k hk
      rcases List.mem_append.1 he with he | he
      · refine absurd (List.mem_map.2 ⟨snap e, List.mem_map_of_mem he, rfl⟩) hlocked
      · exact .inr ⟨_, List.mem_append_right _ List.mem_cons_self, snap e, List.mem_map_of_mem he,
          rfl, rfl⟩

omit [DecidableEq ν] in
theorem pending_write {i : ℕ} (hf : FitsInv T Inv c) (hc : Pending c) (ho : T.InOrder c (.write i))
    (h : c.write i = some c') : Pending c' := by
  unfold Written.write at h
  split at h
  · rename_i snap rest hcall
    obtain rfl := Option.some.inj h
    have hle : c.stored snap.key ≤ snap.version := by
      simpa only [InOrder, WritesForward, hcall] using ho
    have hi : i < c.calls.length := (List.getElem?_eq_some_iff.1 hcall).1
    have hfits := hf.calls _ (List.mem_of_getElem? hcall) snap List.mem_cons_self
    intro k
    have hstored : (c.store snap).stored k = if k = snap.key then snap.version else c.stored k :=
      Function.update_apply ..
    show (c.store snap).stored k = c.version k ∨ _
    rw [hstored]
    rcases hc k with hcur | ⟨snaps, hsnaps, s, hs, hkey, hver⟩
    · -- a write over a row of the current version is of that version
      left
      split_ifs with hk
      · have := hfits.1
        rw [hk] at hcur ⊢
        omega
      · exact hcur
    · obtain ⟨j, hj⟩ := List.getElem?_of_mem hsnaps
      by_cases hij : j = i
      · obtain rfl := Option.some.inj (hj.symm.trans (hij ▸ hcall))
        rcases List.mem_cons.1 hs with rfl | hs
        · left
          rw [if_pos hkey.symm, hver]
        · exact .inr ⟨rest, List.mem_set hi rest, s, hs, hkey, hver⟩
      · refine .inr ⟨snaps, List.mem_of_getElem? (i := j) ?_, s, hs, hkey, hver⟩
        rw [List.getElem?_set_ne (Ne.symm hij)]
        exact hj
  · cases h

theorem pending_step (hf : FitsInv T Inv c) (hc : Pending c) (ho : T.InOrder c a)
    (h : T.step c a = some c') : Pending c' := by
  cases a with
  | call op =>
    obtain rfl := Option.some.inj h
    exact pending_call hc ho
  | write i => exact pending_write hf hc ho h

omit [DecidableEq κ] [DecidableEq ν] in
theorem stored_of_finished (hc : Pending c) (hfinished : c.Finished) (k : κ) :
    c.stored k = c.version k := by
  rcases hc k with hcur | ⟨snaps, hsnaps, s, hs, -⟩
  · exact hcur
  · rw [hfinished snaps hsnaps] at hs
    cases hs

/-- **Writes in order.** In every interleaving of allowed calls that starts with rows that are the
records, whose calls take snapshots of the records they change and whose writes are in order, the
rows are the records when all calls have finished. -/
theorem agrees_of_finished (hT : T.Exact Inv Allowed) {m : σ} {rows : Dict κ ν}
    {as : List (WriteStep ο)} (hm : Inv m) (hrows : ∀ k, rows.get? k = T.view m k)
    (h : Along T.step (fun c a => Calls Allowed c a ∧ T.InOrder c a) { memory := m, rows } as)
    (hrun : runFrom T.step { memory := m, rows } as = some c) (hfinished : c.Finished) :
    T.Agrees c := by
  let Sound := fun c : Written σ κ ν => FitsInv T Inv c ∧ Pending c
  have hstep : ∀ c a c', Sound c → Calls Allowed c a ∧ T.InOrder c a → T.step c a = some c' →
      Sound c' :=
    fun c a c' hc ha hstep => ⟨fitsInv_step hT hc.1 ha.1 hstep, pending_step hc.1 hc.2 ha.2 hstep⟩
  have hinv : Sound c := h.invariant hstep ⟨fitsInv_init hm hrows, fun _ => .inl rfl⟩ hrun
  exact fun k => (hinv.1.rows k).2 (stored_of_finished hinv.2 hfinished k)

end Steps

end Table

end Aidars
