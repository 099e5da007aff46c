import Aidars.Registry.Health
import Aidars.Store.Workers

/-!
# The identifiers under which workers are filed

The registry files a worker under its stripped identifier and leaves the record as it is. No call
but a registration changes the identifier in a record (`inherits_apply`), so the record of a worker
always strips to the key it is filed under (`Keyed.apply`).
-/

namespace Aidars

/-- Stripping an accepted identifier once more changes nothing. -/
theorem validateWorkerId_idem {s k : String} (h : validateWorkerId s = .ok k) :
    validateWorkerId k = .ok k := by
  unfold validateWorkerId at h
  dsimp only at h
  split_ifs at h with hm
  obtain rfl := Except.ok.inj h
  have hlast : (strip s.toList).getLast? ≠ some '\n' := by
    intro hn
    have := getLast?_strip s.toList hn
    exact absurd this (by decide)
  obtain ⟨hp, -, -⟩ := (matchRepeat_iff _ _ _ hlast).1 hm
  have hstrip : strip (String.ofList (strip s.toList)).toList = strip s.toList := by
    rw [String.toList_ofList]
    refine strip_of_all_not fun c hc => ?_
    have hchar := hp c hc
    simp only [isWorkerIdChar, isDecimal, Bool.or_eq_true, Bool.and_eq_true, decide_eq_true_eq,
      char_le_iff, beq_iff_eq] at hchar
    simp only [isSpace, Bool.or_eq_false_iff, Bool.and_eq_false_iff, decide_eq_false_iff_not,
      beq_eq_false_iff_ne, ne_eq]
    have h₁ : ('a' : Char).toNat = 97 := rfl
    have h₂ : ('z' : Char).toNat = 122 := rfl
    have h₃ : ('A' : Char).toNat = 65 := rfl
    have h₄ : ('Z' : Char).toNat = 90 := rfl
    have h₅ : ('0' : Char).toNat = 48 := rfl
    have h₆ : ('9' : Char).toNat = 57 := rfl
    rcases hchar with (hchar | rfl) | rfl
    · omega
    · decide
    · decide
  unfold validateWorkerId
  dsimp only
  rw [hstrip, if_pos hm]

namespace WorkerRegistry

variable {cfg : RegistryConfig} {r r' : WorkerRegistry} {x wid : String}

/-! ## Records keep their identifiers -/

/-- Every record was there before, filed under the same key and with the same identifier. -/
def Inherits (r r' : WorkerRegistry) : Prop :=
  ∀ k info', r'.workers.get? k = some info' →
    ∃ info, r.workers.get? k = some info ∧ info'.workerId = info.workerId

namespace Inherits

theorem refl (r : WorkerRegistry) : Inherits r r := fun _ info h => ⟨info, h, rfl⟩

theorem trans {r'' : WorkerRegistry} (h : Inherits r r') (h' : Inherits r' r'') :
    Inherits r r'' := by
  intro k info'' hk
  obtain ⟨info', hinfo', hid'⟩ := h' k info'' hk
  obtain ⟨info, hinfo, hid⟩ := h k info' hinfo'
  exact ⟨info, hinfo, hid'.trans hid⟩

theorem of_rewrites (hr : Rewrites wid r r') : Inherits r r' := by
  obtain ⟨f, hf, hworkers⟩ := hr
  intro k info' hk
  rw [hworkers] at hk
  split_ifs at hk with he
  · obtain ⟨info, hinfo, rfl⟩ := Option.map_eq_some_iff.1 hk
    exact ⟨info, he ▸ hinfo, hf info⟩
  · exact ⟨info', hk, rfl⟩

theorem of_erased {gone : String → Prop} [DecidablePred gone]
    (hworkers : ∀ k, r'.workers.get? k = if gone k then none else r.workers.get? k) :
    Inherits r r' := by
  intro k info' hk
  rw [hworkers] at hk
  split_ifs at hk
  exact ⟨info', hk, rfl⟩

end Inherits

theorem rewrites_updateHealth (r : WorkerRegistry) (wid : String)
    (f : WorkerHealthRecord → WorkerHealthRecord) {g : WorkerHealthRecord → WorkerInfo → WorkerInfo}
    (hg : ∀ h info, (g h info).workerId = info.workerId) :
    Rewrites wid r (r.updateHealth wid f g) := by
  unfold updateHealth
  split
  · exact .refl wid r
  · exact .of_modify rfl (hg _)

theorem rewrites_recordFailure (r : WorkerRegistry) (wid : String) (penalty now : ℚ) :
    Rewrites wid r (recordFailure cfg r wid penalty now) :=
  rewrites_updateHealth r wid _ fun _ _ => rfl

theorem rewrites_decayOne (r : WorkerRegistry) (wid : String) (now : ℚ) :
    Rewrites wid r (decayOne cfg now r wid) := by
  refine rewrites_updateHealth r wid _ fun rec info => ?_
  unfold decayWorker
  split_ifs <;> rfl

theorem rewrites_recordCorruption (r : WorkerRegistry) (wid hash : String) (penalty now : ℚ) :
    Rewrites wid r (recordCorruption cfg r wid hash penalty now) := by
  unfold WorkerRegistry.recordCorruption
  split
  · exact .refl wid r
  · rename_i record _
    have hcount : ∀ health, Rewrites wid r { r with healthRecords := health } :=
      fun _ => Rewrites.refl wid r
    have hfail : ∀ health, Rewrites wid r
        (WorkerRegistry.recordFailure cfg { r with healthRecords := health } wid penalty now) :=
      fun health => (hcount health).trans (rewrites_recordFailure _ wid penalty now)
    dsimp only
    split
    · exact (hfail _).trans (rewrites_removeWorkerHashes _ wid _)
    · exact hfail _

theorem rewrites_syncWorkerInventory (r : WorkerRegistry) (wid : String) (inventory : List String) :
    Rewrites wid r (r.syncWorkerInventory wid inventory).1 := by
  unfold WorkerRegistry.syncWorkerInventory
  split
  · exact .refl wid r
  · exact (rewrites_addWorkerHashes r wid _).trans (rewrites_removeWorkerHashes _ wid _)

theorem inherits_decayPenalties (r : WorkerRegistry) (now : ℚ) :
    Inherits r (decayPenalties cfg r now) := by
  have hfold : ∀ (l : List String) (r₁ : WorkerRegistry), Inherits r r₁ →
      Inherits r (l.foldl (decayOne cfg now) r₁) := by
    intro l
    induction l with
    | nil => exact fun _ h => h
    | cons wid l ih =>
      exact fun r₁ h => ih _ (h.trans (.of_rewrites (rewrites_decayOne r₁ wid now)))
  exact hfold _ r (.refl r)

/-- **Every call but a registration keeps the identifiers of the records.** -/
theorem inherits_apply (r : WorkerRegistry) {op : Op}
    (hop : ∀ info now, op ≠ .registerWorker info now) : Inherits r (r.apply cfg op) := by
  cases op with
  | registerWorker info now => exact absurd rfl (hop info now)
  | unregisterWorker wid => exact .of_erased (workers_unregisterWorker r wid)
  | addWorkerHashes wid hashes => exact .of_rewrites (rewrites_addWorkerHashes r wid hashes)
  | removeWorkerHashes wid hashes => exact .of_rewrites (rewrites_removeWorkerHashes r wid hashes)
  | syncWorkerInventory wid inventory =>
    exact .of_rewrites (rewrites_syncWorkerInventory r wid inventory)
  | recordHeartbeat wid payload now =>
    exact .of_rewrites (rewrites_recordHeartbeat r wid payload now)
  | evictExpiredWorkers timeoutSeconds now =>
    exact .of_erased fun k => (foldl_evictOne (expiredIds r _) (r, []) k).1
  | recordSuccess wid bytes now => exact .of_rewrites (rewrites_updateHealth r wid _ fun _ _ => rfl)
  | recordFailure wid penalty now => exact .of_rewrites (rewrites_recordFailure r wid penalty now)
  | recordCorruption wid hash penalty now =>
    exact .of_rewrites (rewrites_recordCorruption r wid hash penalty now)
  | decayPenalties now => exact inherits_decayPenalties r now
  | setWorkerStatus wid status =>
    exact .of_rewrites (.of_modify (f := fun w => { w with status }) rfl fun _ => rfl)
  | clear =>
    intro k info h
    cases h

/-! ## Workers are filed under their identifiers -/

/-- Every worker is filed under its stripped identifier. -/
def Keyed (r : WorkerRegistry) : Prop :=
  ∀ k info, r.workers.get? k = some info → validateWorkerId info.workerId = .ok k

theorem keyed_empty : Keyed {} := by
  intro k info h
  cases h

theorem Keyed.of_inherits (h : Keyed r) (hr : Inherits r r') : Keyed r' := by
  intro k info' hk
  obtain ⟨info, hinfo, hid⟩ := hr k info' hk
  rw [hid]
  exact h k info hinfo

theorem Keyed.registerWorker (h : Keyed r) {info copy : WorkerInfo} {now : ℚ}
    (hr : r.registerWorker info now = .ok (r', copy)) : Keyed r' := by
  obtain ⟨wid, hwid, hid, -, hworkers, -⟩ := workers_registerWorker hr
  intro k info' hk
  rw [hworkers, Dict.get?_set] at hk
  split_ifs at hk with he
  · obtain rfl := Option.some.inj hk
    rw [hid, hwid, he]
  · exact h k info' hk

theorem Keyed.of_rewrites (h : Keyed r) (hr : Rewrites wid r r') : Keyed r' :=
  h.of_inherits (.of_rewrites hr)

/-- **Every call keeps workers filed.** -/
theorem Keyed.apply (h : Keyed r) (op : Op) : Keyed (r.apply cfg op) := by
  by_cases hop : ∀ info now, op ≠ .registerWorker info now
  · exact h.of_inherits (inherits_apply r hop)
  · push Not at hop
    obtain ⟨info, now, rfl⟩ := hop
    unfold WorkerRegistry.apply
    dsimp only
    split
    · rename_i r' copy hr
      exact h.registerWorker hr
    · exact h

end WorkerRegistry

end Aidars
