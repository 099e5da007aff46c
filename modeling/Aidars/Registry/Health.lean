import Aidars.Registry.Basic
import Mathlib.Algebra.Order.Field.Basic
import Mathlib.Tactic.Linarith

/-!
# The health classification of the worker registry

A health record carries a penalty score and a status. `classify` is the status that the score
alone calls for, and this module says how far the stored status follows it along a run.

Failures set the status to the class of the new score when it reaches a threshold. Successes
lower the score and promote degraded records only; decay lowers it too and promotes by one level a
pass. Registration does not look at the score: it revives a dead record as a healthy one, and it
stores the status that the worker brings. What has happened to one worker is kept in a `History`:
whether its record was revived since its last failure, whether it was successful since it was last
reclassified, and whether it failed since it last registered. `HealthInv` is the invariant of a
worker's stored status, its record and its history, and `healthInv_track` proves it of every run.
-/

namespace Aidars

/-- The severity of a health status. -/
def WorkerHealthStatus.level : WorkerHealthStatus → ℕ
  | .healthy => 0
  | .degraded => 1
  | .suspect => 2
  | .dead => 3

/-- Registry parameters with thresholds in order and a decay that does not raise a score. -/
structure HealthConfig extends RegistryConfig where
  degraded_pos : 0 < degradedThreshold
  degraded_le_suspect : degradedThreshold ≤ suspectThreshold
  decay_nonneg : ∀ dt, 0 < dt → 0 ≤ decayFactor dt
  decay_le_one : ∀ dt, 0 < dt → decayFactor dt ≤ 1

namespace WorkerRegistry

/-- The status that a penalty score calls for. -/
def classify (cfg : RegistryConfig) (score : ℚ) : WorkerHealthStatus :=
  if cfg.suspectThreshold ≤ score then .suspect
  else if cfg.degradedThreshold ≤ score then .degraded
  else .healthy

/-- The status of a registered worker. -/
def statusOf (r : WorkerRegistry) (wid : String) : Option WorkerStatus :=
  (r.workers.get? wid).map (·.status)

/-! ## Histories -/

/-- What happened to one worker. -/
structure History where
  /-- Its record was revived from dead since its last failure. -/
  revived : Bool := false
  /-- A success was recorded since its last decay and its last failure at a threshold. -/
  succeeded : Bool := false
  /-- A failure was recorded since it last registered or had its status set. -/
  penalised : Bool := false
  deriving DecidableEq

namespace History

variable (cfg : RegistryConfig)

/-- The worker registers; `dead` says whether its record is that of a dead worker. -/
def registered (hist : History) (dead : Bool) : History :=
  { hist with revived := hist.revived || dead, penalised := false }

/-- A failure takes the score of the worker's record to `score`. -/
def failed (hist : History) (score : ℚ) : History :=
  { revived := false
    succeeded := hist.succeeded && score < cfg.degradedThreshold
    penalised := true }

/-- What a call adds to the history of `wid`. -/
def step (wid : String) (r : WorkerRegistry) (hist : History) : Op → History
  | .registerWorker info _ =>
    if validateWorkerId info.workerId = .ok wid then
      hist.registered ((r.healthRecords.get? wid).any (·.healthStatus = .dead))
    else hist
  | .recordSuccess id _ _ => if id = wid then { hist with succeeded := true } else hist
  | .recordFailure id penalty _ | .recordCorruption id _ penalty _ =>
    match r.healthRecords.get? wid with
    | some h => if id = wid then hist.failed cfg (failureScore penalty h) else hist
    | none => hist
  | .decayPenalties now =>
    if (r.healthRecords.get? wid).any fun h => 0 < now - h.lastDecayUtc then
      { hist with succeeded := false }
    else hist
  | .setWorkerStatus id _ => if id = wid then { hist with penalised := false } else hist
  | .clear => {}
  | _ => hist

end History

/-- A run on a new registry, with the history of one worker. -/
def track (cfg : RegistryConfig) (wid : String) (ops : List Op) : WorkerRegistry × History :=
  ops.foldl (fun s op => (apply cfg s.1 op, s.2.step cfg wid s.1 op)) ({}, {})

theorem track_fst (cfg : RegistryConfig) (wid : String) (ops : List Op) :
    (track cfg wid ops).1 = run cfg ops := by
  have key : ∀ (ops : List Op) (s : WorkerRegistry × History),
      (ops.foldl (fun s op => (apply cfg s.1 op, s.2.step cfg wid s.1 op)) s).1 =
        ops.foldl (apply cfg) s.1 := by
    intro ops
    induction ops with
    | nil => exact fun _ => rfl
    | cons op ops ih => exact fun s => ih _
  exact key ops _

/-! ## Classification -/

section Classify

variable {cfg : HealthConfig} {p q : ℚ}

theorem classify_of_suspect (h : cfg.suspectThreshold ≤ p) :
    classify cfg.toRegistryConfig p = .suspect := if_pos h

theorem classify_of_lt_degraded (h : p < cfg.degradedThreshold) :
    classify cfg.toRegistryConfig p = .healthy := by
  have := cfg.degraded_le_suspect
  rw [classify, if_neg (by linarith), if_neg (by linarith)]

theorem level_classify_le_one (h : p < cfg.suspectThreshold) :
    (classify cfg.toRegistryConfig p).level ≤ 1 := by
  rw [classify, if_neg (by linarith)]
  split_ifs
  · exact le_rfl
  · exact Nat.zero_le 1

theorem level_classify_le_two : (classify cfg.toRegistryConfig p).level ≤ 2 := by
  unfold classify
  split_ifs
  · exact le_rfl
  · exact Nat.le_succ 1
  · exact Nat.zero_le 2

/-- A higher score is classified at least as severely. -/
theorem level_classify_mono (h : p ≤ q) :
    (classify cfg.toRegistryConfig p).level ≤ (classify cfg.toRegistryConfig q).level := by
  by_cases hs : cfg.suspectThreshold ≤ q
  · rw [classify_of_suspect hs]
    exact level_classify_le_two
  · rw [not_le] at hs
    by_cases hd : p < cfg.degradedThreshold
    · rw [classify_of_lt_degraded hd]
      exact Nat.zero_le _
    · have hq : classify cfg.toRegistryConfig q = .degraded := by
        rw [classify, if_neg (by linarith), if_pos (by linarith)]
      rw [hq]
      exact level_classify_le_one (by linarith)

end Classify

/-! ## The invariant of one worker -/

/-- A worker's stored status, its health record and its history fit together. -/
structure HealthInv (cfg : HealthConfig) (status : Option WorkerStatus)
    (record : Option WorkerHealthRecord) (hist : History) : Prop where
  registered : status.isSome = true → ∃ h, record = some h ∧ h.healthStatus ≠ .dead
  nonneg : ∀ h, record = some h → 0 ≤ h.penaltyScore
  lower : hist.revived = false → ∀ h, record = some h → h.healthStatus ≠ .dead →
    (classify cfg.toRegistryConfig h.penaltyScore).level ≤ h.healthStatus.level
  upper : hist.succeeded = false → ∀ h, record = some h → h.healthStatus ≠ .dead →
    h.healthStatus.level ≤ (classify cfg.toRegistryConfig h.penaltyScore).level + 1
  suspect : hist.penalised = true → ∀ h s, record = some h → status = some s →
    cfg.suspectThreshold ≤ h.penaltyScore → h.healthStatus = .suspect ∧ s = .unhealthy

namespace HealthInv

variable {cfg : HealthConfig} {status : Option WorkerStatus} {record : Option WorkerHealthRecord}
  {hist : History} {h h' : WorkerHealthRecord}

theorem init : HealthInv cfg none none {} :=
  ⟨nofun, nofun, nofun, nofun, nofun⟩

/-- A registration of a worker that has no health record. -/
theorem register_new (s : WorkerStatus) (hist : History) (hp : h.penaltyScore = 0)
    (hs : h.healthStatus = .healthy) (hpen : hist.penalised = false) :
    HealthInv cfg (some s) (some h) hist := by
  have hc : classify cfg.toRegistryConfig h.penaltyScore = .healthy :=
    classify_of_lt_degraded (hp ▸ cfg.degraded_pos)
  refine ⟨fun _ => ⟨h, rfl, by simp [hs]⟩, ?_, ?_, ?_, by simp [hpen]⟩
  · rintro _ ⟨⟩
    exact hp.ge
  · rintro - _ ⟨⟩ -
    rw [hc, hs]
  · rintro - _ ⟨⟩ -
    rw [hs]
    exact Nat.zero_le _

theorem register_kept (hi : HealthInv cfg status (some h) hist) (hs : h.healthStatus ≠ .dead)
    (s : WorkerStatus) : HealthInv cfg (some s) (some h) (hist.registered false) := by
  refine ⟨fun _ => ⟨h, rfl, hs⟩, hi.nonneg, fun hr => hi.lower ?_, hi.upper, nofun⟩
  simpa [History.registered] using hr

theorem register_revived (hi : HealthInv cfg status (some h) hist) (s : WorkerStatus)
    (h' : WorkerHealthRecord) (hp : h'.penaltyScore = h.penaltyScore)
    (hs : h'.healthStatus = .healthy) :
    HealthInv cfg (some s) (some h') (hist.registered true) := by
  refine ⟨fun _ => ⟨h', rfl, by simp [hs]⟩, ?_, by simp [History.registered], ?_, nofun⟩
  · rintro _ ⟨⟩
    exact hp ▸ hi.nonneg h rfl
  · rintro - _ ⟨⟩ -
    rw [hs]
    exact Nat.zero_le _

/-- An unregistered worker's record is marked dead. -/
theorem unregister (hi : HealthInv cfg status record hist) :
    HealthInv cfg none (record.map fun h => { h with healthStatus := .dead }) hist := by
  cases record with
  | none => exact ⟨nofun, nofun, nofun, nofun, nofun⟩
  | some h =>
    refine ⟨nofun, ?_, ?_, ?_, nofun⟩
    · rintro _ ⟨⟩
      exact hi.nonneg h rfl
    · rintro - _ ⟨⟩ hd
      exact absurd rfl hd
    · rintro - _ ⟨⟩ hd
      exact absurd rfl hd

theorem heartbeat {s : WorkerStatus} (hi : HealthInv cfg (some s) record hist) :
    HealthInv cfg (some (if s = .offline then .active else s)) (record.map reviveHealth) hist := by
  obtain ⟨h, rfl, hd⟩ := hi.registered rfl
  have hsame : reviveHealth h = h := by
    unfold reviveHealth
    rw [if_neg hd]
  rw [Option.map_some, hsame]
  refine ⟨fun _ => ⟨h, rfl, hd⟩, hi.nonneg, hi.lower, hi.upper, ?_⟩
  rintro hp _ _ ⟨⟩ ⟨⟩ hge
  obtain ⟨h₁, rfl⟩ := hi.suspect hp h s rfl rfl hge
  exact ⟨h₁, rfl⟩

theorem set_status (hi : HealthInv cfg status record hist) (f : WorkerStatus → WorkerStatus) :
    HealthInv cfg (status.map f) record { hist with penalised := false } :=
  ⟨fun hs => hi.registered (by simpa using hs), hi.nonneg, hi.lower, hi.upper, nofun⟩

theorem failure (hi : HealthInv cfg status (some h) hist) (penalty : ℚ)
    (hp : h'.penaltyScore = failureScore penalty h)
    (hs : h'.healthStatus = if cfg.suspectThreshold ≤ failureScore penalty h then .suspect
      else if cfg.degradedThreshold ≤ failureScore penalty h then .degraded else h.healthStatus) :
    HealthInv cfg (status.map fun s => if cfg.suspectThreshold ≤ failureScore penalty h
      then .unhealthy else if cfg.degradedThreshold ≤ failureScore penalty h then .degraded else s)
      (some h') (hist.failed cfg.toRegistryConfig (failureScore penalty h)) := by
  have hle : h.penaltyScore ≤ failureScore penalty h := by
    have := le_max_left 0 penalty
    unfold failureScore
    linarith
  have h₀ := hi.nonneg h rfl
  -- below both thresholds the status stays, and any status is at least healthy
  rcases lt_or_ge (failureScore penalty h) cfg.degradedThreshold with hlt | hge
  · have hns : ¬ cfg.suspectThreshold ≤ failureScore penalty h := by
      have := cfg.degraded_le_suspect
      linarith
    rw [if_neg hns, if_neg (by linarith)] at hs
    refine ⟨fun hr => ?_, ?_, ?_, ?_, ?_⟩
    · obtain ⟨_, ⟨⟩, hd⟩ := hi.registered (by simpa using hr)
      exact ⟨h', rfl, hs ▸ hd⟩
    · rintro _ ⟨⟩
      linarith
    · rintro - _ ⟨⟩ -
      rw [hp, classify_of_lt_degraded hlt]
      exact Nat.zero_le _
    · rintro hsucc _ ⟨⟩ hd
      have hf : hist.succeeded = false := by simpa [History.failed, hlt] using hsucc
      rw [hs] at hd ⊢
      refine (hi.upper hf h rfl hd).trans ?_
      exact Nat.succ_le_succ (level_classify_mono (by linarith))
    · rintro - _ s ⟨⟩ - hsus
      exact absurd (hp ▸ hsus) hns
  · have hc : h'.healthStatus = classify cfg.toRegistryConfig h'.penaltyScore := by
      rw [hs, hp, classify]
      split_ifs <;> rfl
    have hd : h'.healthStatus ≠ .dead := by
      rw [hs]
      split_ifs <;> decide
    refine ⟨fun _ => ⟨h', rfl, hd⟩, ?_, ?_, ?_, ?_⟩
    · rintro _ ⟨⟩
      linarith
    · rintro - _ ⟨⟩ -
      rw [hc]
    · rintro - _ ⟨⟩ -
      rw [← hc]
      exact Nat.le_succ _
    · rintro - _ s ⟨⟩ hst hsus
      rw [hp] at hsus
      obtain ⟨s₀, -, rfl⟩ := Option.map_eq_some_iff.1 hst
      exact ⟨by rw [hs, if_pos hsus], if_pos hsus⟩

theorem lowered (hi : HealthInv cfg status (some h) hist) {f : WorkerStatus → WorkerStatus}
    {hist' : History} (h₀ : 0 ≤ h'.penaltyScore) (hle : h'.penaltyScore ≤ h.penaltyScore)
    (hdead : h'.healthStatus = .dead ↔ h.healthStatus = .dead)
    (hlow : h'.healthStatus = h.healthStatus ∨
      (classify cfg.toRegistryConfig h'.penaltyScore).level ≤ h'.healthStatus.level)
    (hkeep : cfg.suspectThreshold ≤ h'.penaltyScore → h'.healthStatus = h.healthStatus ∧ ∀ s,
      f s = s)
    (hrev : hist'.revived = hist.revived) (hpen : hist'.penalised = hist.penalised)
    (hup : hist'.succeeded = false → h'.healthStatus ≠ .dead →
      h'.healthStatus.level ≤ (classify cfg.toRegistryConfig h'.penaltyScore).level + 1) :
    HealthInv cfg (status.map f) (some h') hist' := by
  refine ⟨fun hr => ?_, ?_, ?_, ?_, ?_⟩
  · obtain ⟨_, ⟨⟩, hd⟩ := hi.registered (by simpa using hr)
    exact ⟨h', rfl, fun h => hd (hdead.1 h)⟩
  · rintro _ ⟨⟩
    exact h₀
  · rintro hr _ ⟨⟩ hd
    rcases hlow with heq | hlow
    · have := hi.lower (hrev ▸ hr) h rfl (fun h => hd (hdead.2 h))
      rw [heq]
      exact (level_classify_mono hle).trans this
    · exact hlow
  · rintro hsucc _ ⟨⟩ hd
    exact hup hsucc hd
  · rintro hp _ s ⟨⟩ hst hsus
    obtain ⟨hk, hf⟩ := hkeep hsus
    obtain ⟨s₀, hs₀, rfl⟩ := Option.map_eq_some_iff.1 hst
    rw [hk, hf]
    exact hi.suspect (hpen ▸ hp) h s₀ rfl hs₀ (hsus.trans hle)

theorem success (hi : HealthInv cfg status (some h) hist) (hp : h'.penaltyScore = successScore h)
    (hs : h'.healthStatus =
      if successRecovers cfg.toRegistryConfig h then .healthy else h.healthStatus) :
    HealthInv cfg
      (status.map fun s => if successRecovers cfg.toRegistryConfig h then .active else s)
      (some h') { hist with succeeded := true } := by
  have h₀ := hi.nonneg h rfl
  have hle : successScore h ≤ h.penaltyScore := max_le h₀ (by linarith)
  have hnn : 0 ≤ successScore h := le_max_left _ _
  by_cases hr : successRecovers cfg.toRegistryConfig h = true
  · rw [if_pos hr] at hs
    simp only [successRecovers, Bool.and_eq_true, decide_eq_true_eq] at hr
    refine hi.lowered (hp ▸ hnn) (hp ▸ hle) (by simp [hs, hr.2]) (Or.inr ?_) ?_ rfl rfl nofun
    · rw [hp, classify_of_lt_degraded hr.1]
      exact Nat.zero_le _
    · intro hsus
      have := cfg.degraded_le_suspect
      linarith [hr.1]
  · rw [if_neg hr] at hs
    refine hi.lowered (hp ▸ hnn) (hp ▸ hle) (by simp [hs]) (Or.inl hs) ?_ rfl rfl nofun
    exact fun _ => ⟨hs, fun s => if_neg hr⟩

theorem level_decayRecord (now : ℚ) (hdt : 0 < now - h.lastDecayUtc)
    (hd : (decayRecord cfg.toRegistryConfig now h).healthStatus ≠ .dead) :
    (decayRecord cfg.toRegistryConfig now h).healthStatus.level ≤
      (classify cfg.toRegistryConfig (decayScore cfg.toRegistryConfig now h)).level + 1 := by
  have hnot : ¬ now - h.lastDecayUtc ≤ 0 := by linarith
  simp only [decayRecord, if_neg hnot, decayRecovers, decayImproves, Bool.and_eq_true,
    decide_eq_true_eq] at hd ⊢
  split_ifs at hd ⊢ with hrec himp
  · exact Nat.zero_le _
  · exact Nat.succ_le_succ (Nat.zero_le _)
  · cases hst : h.healthStatus with
    | healthy => exact Nat.zero_le _
    | degraded => exact Nat.succ_le_succ (Nat.zero_le _)
    | suspect =>
      have : cfg.suspectThreshold ≤ decayScore cfg.toRegistryConfig now h :=
        not_lt.1 fun hlt => himp ⟨hlt, hst⟩
      rw [classify_of_suspect this]
      exact Nat.le_succ _
    | dead => exact absurd hst hd

theorem decay (hi : HealthInv cfg status (some h) hist) (now : ℚ)
    (hdt : 0 < now - h.lastDecayUtc) {f : WorkerStatus → WorkerStatus}
    (hf : ∀ s, f s = if decayRecovers cfg.toRegistryConfig now h then .active
      else if decayImproves cfg.toRegistryConfig now h then .degraded else s) :
    HealthInv cfg (status.map f) (some (decayRecord cfg.toRegistryConfig now h))
      { hist with succeeded := false } := by
  have h₀ := hi.nonneg h rfl
  have hfac := cfg.decay_nonneg _ hdt
  have hnn : 0 ≤ decayScore cfg.toRegistryConfig now h := mul_nonneg h₀ hfac
  have hle : decayScore cfg.toRegistryConfig now h ≤ h.penaltyScore :=
    mul_le_of_le_one_right h₀ (cfg.decay_le_one _ hdt)
  have hnot : ¬ now - h.lastDecayUtc ≤ 0 := by linarith
  have hup : (decayRecord cfg.toRegistryConfig now h).healthStatus ≠ .dead → _ :=
    level_decayRecord now hdt
  simp only [decayRecord, if_neg hnot, decayRecovers, decayImproves, Bool.and_eq_true,
    decide_eq_true_eq] at hup hf ⊢
  have hds := cfg.degraded_le_suspect
  refine hi.lowered hnn hle ?_ ?_ ?_ rfl rfl fun _ hd => hup hd
  · split_ifs with hrec himp
    · simp [hrec.2]
    · simp [himp.2]
    · exact Iff.rfl
  · split_ifs with hrec himp
    · right
      rw [classify_of_lt_degraded hrec.1]
    · exact Or.inr (level_classify_le_one himp.1)
    · exact Or.inl rfl
  · intro hsus
    have hrec : ¬ (decayScore cfg.toRegistryConfig now h < cfg.degradedThreshold ∧
        h.healthStatus = .degraded) := fun hr =>
      absurd (hds.trans hsus) (not_le.2 hr.1)
    have himp : ¬ (decayScore cfg.toRegistryConfig now h < cfg.suspectThreshold ∧
        h.healthStatus = .suspect) := fun hr => absurd hsus (not_le.2 hr.1)
    exact ⟨by rw [if_neg hrec, if_neg himp], fun s => by rw [hf, if_neg hrec, if_neg himp]⟩

end HealthInv

/-! ## What each call does to one worker -/

section Effects

variable {r r' : WorkerRegistry} {wid w : String}

theorem statusOf_modify {f : WorkerInfo → WorkerInfo} {g : WorkerStatus → WorkerStatus}
    (hr : r'.workers = r.workers.modify wid f) (hfg : ∀ i, (f i).status = g i.status) :
    r'.statusOf w = if w = wid then (r.statusOf wid).map g else r.statusOf w := by
  unfold statusOf
  rw [hr, Dict.get?_modify]
  split_ifs
  · rw [Option.map_map, Option.map_map]
    congr 1
    funext i
    exact hfg i
  · rfl

theorem statusOf_modify_id {f : WorkerInfo → WorkerInfo} (hr : r'.workers = r.workers.modify wid f)
    (hf : ∀ i, (f i).status = i.status) : r'.statusOf w = r.statusOf w := by
  rw [statusOf_modify (g := id) hr hf]
  split_ifs with h
  · rw [h, Option.map_id]
    rfl
  · rfl

theorem addWorkerHashes_health (r : WorkerRegistry) (wid : String) (hashes : List String) :
    (r.addWorkerHashes wid hashes).1.healthRecords = r.healthRecords := by
  unfold addWorkerHashes
  split <;> rfl

theorem removeWorkerHashes_health (r : WorkerRegistry) (wid : String) (hashes : List String) :
    (r.removeWorkerHashes wid hashes).1.healthRecords = r.healthRecords := by
  unfold removeWorkerHashes
  split <;> rfl

theorem addWorkerHashes_statusOf (r : WorkerRegistry) (wid : String) (hashes : List String) :
    (r.addWorkerHashes wid hashes).1.statusOf w = r.statusOf w := by
  unfold addWorkerHashes
  split
  · rfl
  · exact statusOf_modify_id rfl fun _ => rfl

theorem removeWorkerHashes_statusOf (r : WorkerRegistry) (wid : String) (hashes : List String) :
    (r.removeWorkerHashes wid hashes).1.statusOf w = r.statusOf w := by
  unfold removeWorkerHashes
  split
  · rfl
  · exact statusOf_modify_id rfl fun _ => rfl

theorem syncWorkerInventory_health (r : WorkerRegistry) (wid : String) (inventory : List String) :
    (r.syncWorkerInventory wid inventory).1.healthRecords = r.healthRecords := by
  unfold syncWorkerInventory
  split
  · rfl
  · exact (removeWorkerHashes_health _ _ _).trans (addWorkerHashes_health _ _ _)

theorem syncWorkerInventory_statusOf (r : WorkerRegistry) (wid : String) (inventory : List String) :
    (r.syncWorkerInventory wid inventory).1.statusOf w = r.statusOf w := by
  unfold syncWorkerInventory
  split
  · rfl
  · exact (removeWorkerHashes_statusOf _ _ _).trans (addWorkerHashes_statusOf _ _ _)

theorem applyDeltas_health (r : WorkerRegistry) (wid : String) (p : HeartbeatPayload) :
    (r.applyDeltas wid p).healthRecords = r.healthRecords := by
  unfold applyDeltas
  dsimp only
  split_ifs <;> simp only [addWorkerHashes_health, removeWorkerHashes_health]

theorem applyDeltas_statusOf (r : WorkerRegistry) (wid : String) (p : HeartbeatPayload) :
    (r.applyDeltas wid p).statusOf w = r.statusOf w := by
  unfold applyDeltas
  dsimp only
  split_ifs <;> simp only [addWorkerHashes_statusOf, removeWorkerHashes_statusOf]

theorem applyPayload_health (r : WorkerRegistry) (wid : String) (now : ℚ) (p : HeartbeatPayload) :
    (r.applyPayload wid now p).healthRecords = r.healthRecords :=
  applyDeltas_health _ wid p

theorem applyPayload_statusOf (r : WorkerRegistry) (wid : String) (now : ℚ) (p : HeartbeatPayload) :
    (r.applyPayload wid now p).statusOf w = r.statusOf w := by
  unfold applyPayload
  dsimp only
  rw [statusOf_modify_id (f := applyTelemetry p now) rfl (fun _ => rfl), applyDeltas_statusOf]
  exact statusOf_modify_id (f := applyMetrics p) rfl fun _ => rfl

theorem statusOf_updateHealth {f : WorkerHealthRecord → WorkerHealthRecord}
    {g : WorkerHealthRecord → WorkerInfo → WorkerInfo} {h : WorkerHealthRecord}
    {k : WorkerStatus → WorkerStatus} (hh : r.healthRecords.get? wid = some h)
    (hk : ∀ i, (g h i).status = k i.status) :
    (r.updateHealth wid f g).statusOf w =
      if w = wid then (r.statusOf wid).map k else r.statusOf w := by
  unfold updateHealth
  rw [hh]
  exact statusOf_modify rfl hk

theorem health_updateHealth {f : WorkerHealthRecord → WorkerHealthRecord}
    {g : WorkerHealthRecord → WorkerInfo → WorkerInfo} {h : WorkerHealthRecord}
    (hh : r.healthRecords.get? wid = some h) :
    (r.updateHealth wid f g).healthRecords.get? w =
      if w = wid then some (f h) else r.healthRecords.get? w := by
  unfold updateHealth
  rw [hh]
  exact Dict.get?_set ..

theorem updateHealth_of_none {f : WorkerHealthRecord → WorkerHealthRecord}
    {g : WorkerHealthRecord → WorkerInfo → WorkerInfo} (hh : r.healthRecords.get? wid = none) :
    r.updateHealth wid f g = r := by
  unfold updateHealth
  rw [hh]

theorem updateHealth_of_ne {f : WorkerHealthRecord → WorkerHealthRecord}
    {g : WorkerHealthRecord → WorkerInfo → WorkerInfo} (hne : w ≠ wid) :
    (r.updateHealth wid f g).statusOf w = r.statusOf w ∧
      (r.updateHealth wid f g).healthRecords.get? w = r.healthRecords.get? w := by
  unfold updateHealth
  split
  · exact ⟨rfl, rfl⟩
  · refine ⟨?_, ?_⟩
    · simp [statusOf, hne]
    · simp [hne]

end Effects

/-! ## Runs -/

/-- The invariant of worker `wid` in a registry. -/
def HealthInvAt (cfg : HealthConfig) (wid : String) (s : WorkerRegistry × History) : Prop :=
  HealthInv cfg (s.1.statusOf wid) (s.1.healthRecords.get? wid) s.2

namespace HealthInvAt

variable {cfg : HealthConfig} {wid : String} {r r' : WorkerRegistry} {hist : History}

theorem congr (hi : HealthInvAt cfg wid (r, hist)) (hs : r'.statusOf wid = r.statusOf wid)
    (hh : r'.healthRecords.get? wid = r.healthRecords.get? wid) :
    HealthInvAt cfg wid (r', hist) := by
  unfold HealthInvAt
  rw [hs, hh]
  exact hi

/-- An update of another worker's record. -/
theorem updateHealth_of_ne (hi : HealthInvAt cfg wid (r, hist)) {id : String}
    {f : WorkerHealthRecord → WorkerHealthRecord} {g : WorkerHealthRecord → WorkerInfo → WorkerInfo}
    (hne : wid ≠ id) : HealthInvAt cfg wid (r.updateHealth id f g, hist) :=
  hi.congr (WorkerRegistry.updateHealth_of_ne hne).1 (WorkerRegistry.updateHealth_of_ne hne).2

theorem registerWorker (hi : HealthInvAt cfg wid (r, hist)) {info copy : WorkerInfo} {now : ℚ}
    {id : String} (hid : validateWorkerId info.workerId = .ok id)
    (h : r.registerWorker info now = .ok (r', copy)) :
    HealthInvAt cfg wid (r', if id = wid then
      hist.registered ((r.healthRecords.get? wid).any (·.healthStatus = .dead)) else hist) := by
  unfold WorkerRegistry.registerWorker at h
  rw [hid] at h
  obtain ⟨rfl, rfl⟩ := Prod.mk.inj (Except.ok.inj h)
  have hrec : ∀ r₀ : WorkerRegistry, (if (r.workerHashes.get? id).isSome
      then r.removeWorkerFromIndex id else r) = r₀ →
        r₀.healthRecords = r.healthRecords ∧ r₀.workers = r.workers := by
    rintro r₀ rfl
    split_ifs <;> exact ⟨rfl, rfl⟩
  obtain ⟨hh, hw⟩ := hrec _ rfl
  by_cases he : id = wid
  · subst he
    simp only [HealthInvAt, statusOf, Dict.get?_set, if_true, Option.map_some, registerHealth, hh]
    cases hr : r.healthRecords.get? id with
    | none => simpa using HealthInv.register_new _ _ rfl rfl rfl
    | some h₀ =>
      have hi' : HealthInv cfg (r.statusOf id) (some h₀) hist := hr ▸ hi
      by_cases hd : h₀.healthStatus = .dead
      · simpa [hd] using hi'.register_revived _
          { h₀ with healthStatus := .healthy, consecutiveFailures := 0 } rfl rfl
      · simpa [hd, hr] using hi'.register_kept hd _
  · rw [if_neg he]
    have he' : ¬ wid = id := fun h => he h.symm
    refine hi.congr ?_ ?_
    · simp only [statusOf, Dict.get?_set, if_neg he', hw]
    · simp only [registerHealth, hh]
      split
      · rw [Dict.get?_set, if_neg he']
      · split_ifs
        · rw [Dict.get?_set, if_neg he']
        · rfl

theorem unregisterWorker (hi : HealthInvAt cfg wid (r, hist)) (id : String) :
    HealthInvAt cfg wid ((r.unregisterWorker id).1, hist) := by
  unfold WorkerRegistry.unregisterWorker
  split
  · exact hi
  · by_cases he : wid = id
    · subst he
      simpa [HealthInvAt, statusOf, removeWorkerFromIndex] using hi.unregister
    · refine hi.congr ?_ ?_
      · simp [statusOf, removeWorkerFromIndex, he]
      · simp [removeWorkerFromIndex, he]

theorem evictExpiredWorkers (hi : HealthInvAt cfg wid (r, hist)) (c : RegistryConfig)
    (timeoutSeconds : Option ℚ) (now : ℚ) :
    HealthInvAt cfg wid ((evictExpiredWorkers c r timeoutSeconds now).1, hist) := by
  have key : ∀ (ids : List String) (acc : WorkerRegistry × List String),
      HealthInvAt cfg wid (acc.1, hist) →
        HealthInvAt cfg wid ((ids.foldl evictOne acc).1, hist) := by
    intro ids
    induction ids with
    | nil => exact fun _ h => h
    | cons id ids ih =>
      intro acc h
      refine ih _ ?_
      have := h.unregisterWorker id
      unfold evictOne
      split <;> simp_all
  exact key _ _ hi

theorem recordHeartbeat (hi : HealthInvAt cfg wid (r, hist)) (id : String)
    (payload : Option HeartbeatPayload) (now : ℚ) :
    HealthInvAt cfg wid ((r.recordHeartbeat id payload now).1, hist) := by
  unfold WorkerRegistry.recordHeartbeat
  split
  · exact hi
  · rename_i w hw
    -- touching the worker and reading the payload change neither a status nor a record
    have key : ∀ r₁ : WorkerRegistry, r₁.statusOf = r.statusOf →
        r₁.healthRecords = r.healthRecords → HealthInvAt cfg wid ({ r₁ with
          healthRecords := r₁.healthRecords.modify id reviveHealth
          workers := r₁.workers.modify id reviveStatus }, hist) := by
      intro r₁ hs hh
      have hstat : statusOf { r₁ with
          healthRecords := r₁.healthRecords.modify id reviveHealth
          workers := r₁.workers.modify id reviveStatus } wid =
          if wid = id then (r₁.statusOf id).map (fun s => if s = .offline then .active else s)
          else r₁.statusOf wid :=
        statusOf_modify rfl fun i => rfl
      unfold HealthInvAt
      rw [hstat, hs, hh, Dict.get?_modify]
      by_cases he : wid = id
      · subst he
        have hst : r.statusOf wid = some w.status := by rw [statusOf, hw, Option.map_some]
        have hi' : HealthInv cfg (some w.status) (r.healthRecords.get? wid) hist := hst ▸ hi
        simpa [hst] using hi'.heartbeat
      · rw [if_neg he, if_neg he]
        exact hi
    have htouch : statusOf { r with workers := r.workers.modify id (touch now) } = r.statusOf := by
      funext w
      exact statusOf_modify_id rfl fun _ => rfl
    cases payload with
    | none => exact key _ htouch rfl
    | some p =>
      refine key _ ?_ (applyPayload_health _ id now p)
      funext w
      rw [applyPayload_statusOf, htouch]

theorem recordSuccess (hi : HealthInvAt cfg wid (r, hist)) (id : String) (bytes : ℤ) (now : ℚ) :
    HealthInvAt cfg wid (recordSuccess cfg.toRegistryConfig r id bytes now,
      if id = wid then { hist with succeeded := true } else hist) := by
  by_cases he : id = wid
  · subst he
    rw [if_pos rfl]
    cases hr : r.healthRecords.get? id with
    | none =>
      have hn : HealthInv cfg (r.statusOf id) none hist := hr ▸ hi
      rw [WorkerRegistry.recordSuccess, updateHealth_of_none hr]
      unfold HealthInvAt
      rw [hr]
      exact ⟨hn.registered, nofun, nofun, nofun, nofun⟩
    | some h =>
      have hi' : HealthInv cfg (r.statusOf id) (some h) hist := hr ▸ hi
      unfold HealthInvAt WorkerRegistry.recordSuccess
      rw [statusOf_updateHealth (k := fun s => if successRecovers cfg.toRegistryConfig h
        then .active else s) hr (fun i => rfl), health_updateHealth hr, if_pos rfl, if_pos rfl]
      exact hi'.success rfl rfl
  · rw [if_neg he]
    exact hi.updateHealth_of_ne fun h => he h.symm

theorem recordFailure (hi : HealthInvAt cfg wid (r, hist)) (id : String) (penalty now : ℚ) :
    HealthInvAt cfg wid (recordFailure cfg.toRegistryConfig r id penalty now,
      match r.healthRecords.get? wid with
      | some h =>
        if id = wid then hist.failed cfg.toRegistryConfig (failureScore penalty h) else hist
      | none => hist) := by
  by_cases he : id = wid
  · subst he
    cases hr : r.healthRecords.get? id with
    | none =>
      rw [WorkerRegistry.recordFailure, updateHealth_of_none hr]
      exact hi
    | some h =>
      have hi' : HealthInv cfg (r.statusOf id) (some h) hist := hr ▸ hi
      unfold HealthInvAt WorkerRegistry.recordFailure
      dsimp only
      rw [statusOf_updateHealth (k := fun s => if cfg.suspectThreshold ≤ failureScore penalty h
        then .unhealthy else if cfg.degradedThreshold ≤
          failureScore penalty h then .degraded else s)
        hr (fun i => rfl), health_updateHealth hr, if_pos rfl, if_pos rfl, if_pos rfl]
      exact hi'.failure penalty rfl rfl
  · have hsame : HealthInvAt cfg wid
        (WorkerRegistry.recordFailure cfg.toRegistryConfig r id penalty now, hist) :=
      hi.updateHealth_of_ne fun h => he h.symm
    cases hr : r.healthRecords.get? wid with
    | none => exact hsame
    | some h =>
      dsimp only
      rw [if_neg he]
      exact hsame

theorem count_corruption (hi : HealthInvAt cfg wid (r, hist)) {id : String}
    {h : WorkerHealthRecord} (hr : r.healthRecords.get? id = some h) (n : ℕ) :
    HealthInvAt cfg wid ({ r with
      healthRecords := r.healthRecords.set id { h with totalCorruptions := n } }, hist) := by
  by_cases he : wid = id
  · subst he
    have hi' : HealthInv cfg (r.statusOf wid) (some h) hist := hr ▸ hi
    unfold HealthInvAt
    dsimp only
    rw [Dict.get?_set, if_pos rfl]
    refine ⟨fun hs => ?_, ?_, ?_, ?_, ?_⟩
    · obtain ⟨_, ⟨⟩, hd⟩ := hi'.registered hs
      exact ⟨_, rfl, hd⟩
    · rintro _ ⟨⟩
      exact hi'.nonneg h rfl
    · rintro hv _ ⟨⟩ hd
      exact hi'.lower hv h rfl hd
    · rintro hv _ ⟨⟩ hd
      exact hi'.upper hv h rfl hd
    · rintro hv _ s ⟨⟩ hs
      exact hi'.suspect hv h s rfl hs
  · refine hi.congr rfl ?_
    rw [Dict.get?_set, if_neg he]

theorem recordCorruption (hi : HealthInvAt cfg wid (r, hist)) (id sha256Hex : String)
    (penalty now : ℚ) :
    HealthInvAt cfg wid (recordCorruption cfg.toRegistryConfig r id sha256Hex penalty now,
      match r.healthRecords.get? wid with
      | some h =>
        if id = wid then hist.failed cfg.toRegistryConfig (failureScore penalty h) else hist
      | none => hist) := by
  unfold WorkerRegistry.recordCorruption
  split
  · rename_i hn
    split
    · split_ifs with he
      · subst he
        simp_all
      · exact hi
    · exact hi
  · rename_i h₀ hr
    have h₁ := (hi.count_corruption hr (h₀.totalCorruptions + 1)).recordFailure id penalty now
    have hhist : (match (r.healthRecords.set id { h₀ with
          totalCorruptions := h₀.totalCorruptions + 1 }).get? wid with
        | some h =>
          if id = wid then hist.failed cfg.toRegistryConfig (failureScore penalty h) else hist
        | none => hist) = match r.healthRecords.get? wid with
        | some h =>
          if id = wid then hist.failed cfg.toRegistryConfig (failureScore penalty h) else hist
        | none => hist := by
      rw [Dict.get?_set]
      by_cases he : wid = id
      · subst he
        rw [if_pos rfl, hr]
        rfl
      · rw [if_neg he]
    dsimp only at h₁ ⊢
    rw [hhist] at h₁
    split
    · exact h₁.congr (removeWorkerHashes_statusOf ..) (by rw [removeWorkerHashes_health])
    · exact h₁

theorem foldl_decayOne_of_notMem (c : RegistryConfig) (now : ℚ) {ids : List String}
    (hids : wid ∉ ids) (r : WorkerRegistry) :
    (ids.foldl (decayOne c now) r).statusOf wid = r.statusOf wid ∧
      (ids.foldl (decayOne c now) r).healthRecords.get? wid = r.healthRecords.get? wid := by
  induction ids generalizing r with
  | nil => exact ⟨rfl, rfl⟩
  | cons id ids ih =>
    rw [List.mem_cons, not_or] at hids
    obtain ⟨hs, hh⟩ := ih hids.2 (decayOne c now r id)
    have hsame := WorkerRegistry.updateHealth_of_ne (r := r) (f := decayRecord c now)
      (g := decayWorker c now) hids.1
    exact ⟨hs.trans hsame.1, hh.trans hsame.2⟩

theorem decayOne (hi : HealthInvAt cfg wid (r, hist)) (now : ℚ) :
    HealthInvAt cfg wid (decayOne cfg.toRegistryConfig now r wid,
      if (r.healthRecords.get? wid).any fun h => 0 < now - h.lastDecayUtc then
        { hist with succeeded := false } else hist) := by
  cases hr : r.healthRecords.get? wid with
  | none =>
    rw [WorkerRegistry.decayOne, updateHealth_of_none hr]
    exact hi
  | some h =>
    have hi' : HealthInv cfg (r.statusOf wid) (some h) hist := hr ▸ hi
    unfold HealthInvAt WorkerRegistry.decayOne
    simp only [Option.any_some, decide_eq_true_eq]
    rw [health_updateHealth hr, if_pos rfl]
    by_cases hdt : 0 < now - h.lastDecayUtc
    · have hnot : ¬ now - h.lastDecayUtc ≤ 0 := not_le.2 hdt
      have hd := hi'.decay now hdt fun _ => rfl
      rw [statusOf_updateHealth (k := fun s => if decayRecovers cfg.toRegistryConfig now h
        then .active else if decayImproves cfg.toRegistryConfig now h then .degraded else s) hr
        (fun i => by unfold decayWorker; rw [if_neg hnot]), if_pos rfl, if_pos hdt]
      exact hd
    · have hle := not_lt.1 hdt
      rw [statusOf_updateHealth (k := id) hr (fun i => by unfold decayWorker; rw [if_pos hle]; rfl),
        if_pos rfl, Option.map_id, decayRecord, if_pos hle, if_neg hdt]
      exact hi'

theorem decayPenalties (hi : HealthInvAt cfg wid (r, hist)) (now : ℚ) :
    HealthInvAt cfg wid (decayPenalties cfg.toRegistryConfig r now,
      if (r.healthRecords.get? wid).any fun h => 0 < now - h.lastDecayUtc then
        { hist with succeeded := false } else hist) := by
  unfold WorkerRegistry.decayPenalties
  by_cases hmem : wid ∈ r.healthRecords.keys
  · -- the pass visits the record once: split it there
    obtain ⟨l₁, l₂, hl⟩ := List.append_of_mem hmem
    have hnd : (l₁ ++ wid :: l₂).Nodup := hl ▸ r.healthRecords.nodup
    have h₁ : wid ∉ l₁ := fun h => (List.nodup_append.1 hnd).2.2 wid h wid (by simp) rfl
    have h₂ : wid ∉ l₂ := (List.nodup_cons.1 (List.nodup_append.1 hnd).2.1).1
    rw [hl, List.foldl_append, List.foldl_cons]
    obtain ⟨hs₁, hh₁⟩ := foldl_decayOne_of_notMem cfg.toRegistryConfig now h₁ r
    obtain ⟨hs₂, hh₂⟩ := foldl_decayOne_of_notMem cfg.toRegistryConfig now h₂
      (WorkerRegistry.decayOne cfg.toRegistryConfig now
        (l₁.foldl (WorkerRegistry.decayOne cfg.toRegistryConfig now) r) wid)
    have hmid := (hi.congr hs₁ hh₁).decayOne now
    rw [hh₁] at hmid
    exact hmid.congr hs₂ hh₂
  · obtain ⟨hs, hh⟩ := foldl_decayOne_of_notMem cfg.toRegistryConfig now hmem r
    rw [Dict.not_mem_keys.1 hmem]
    exact hi.congr hs hh

/-- **Every call keeps the invariant of every worker.** -/
theorem apply (hi : HealthInvAt cfg wid (r, hist)) (op : Op) :
    HealthInvAt cfg wid (apply cfg.toRegistryConfig r op,
      hist.step cfg.toRegistryConfig wid r op) := by
  cases op with
  | registerWorker info now =>
    unfold WorkerRegistry.apply History.step
    dsimp only
    cases hid : validateWorkerId info.workerId with
    | error e =>
      have hr : r.registerWorker info now = .error e := by
        unfold WorkerRegistry.registerWorker
        rw [hid]
      rw [hr]
      exact hi
    | ok id =>
      have hiff : ((Except.ok id : Except ValueError String) = .ok wid) = (id = wid) := by
        rw [Except.ok.injEq]
      simp only [hiff]
      cases hr : r.registerWorker info now with
      | error e =>
        unfold WorkerRegistry.registerWorker at hr
        rw [hid] at hr
        cases hr
      | ok res => exact hi.registerWorker hid hr
  | unregisterWorker id => exact hi.unregisterWorker id
  | addWorkerHashes id hashes =>
    exact hi.congr (addWorkerHashes_statusOf ..) (congrArg (·.get? wid) (addWorkerHashes_health ..))
  | removeWorkerHashes id hashes =>
    exact hi.congr (removeWorkerHashes_statusOf ..)
      (congrArg (·.get? wid) (removeWorkerHashes_health ..))
  | syncWorkerInventory id inventory =>
    exact hi.congr (syncWorkerInventory_statusOf ..)
      (congrArg (·.get? wid) (syncWorkerInventory_health ..))
  | recordHeartbeat id payload now => exact hi.recordHeartbeat id payload now
  | evictExpiredWorkers timeoutSeconds now => exact hi.evictExpiredWorkers _ timeoutSeconds now
  | recordSuccess id bytes now => exact hi.recordSuccess id bytes now
  | recordFailure id penalty now => exact hi.recordFailure id penalty now
  | recordCorruption id sha256Hex penalty now => exact hi.recordCorruption id sha256Hex penalty now
  | decayPenalties now => exact hi.decayPenalties now
  | setWorkerStatus id status =>
    have hs : (r.setWorkerStatus id status).statusOf wid = if wid = id then
        (r.statusOf id).map (fun _ => status) else r.statusOf wid :=
      statusOf_modify rfl fun _ => rfl
    unfold HealthInvAt WorkerRegistry.apply History.step
    dsimp only
    rw [hs]
    by_cases he : wid = id
    · subst he
      rw [if_pos rfl, if_pos rfl]
      exact hi.set_status _
    · rw [if_neg he, if_neg fun h => he h.symm]
      exact hi
  | clear => exact HealthInv.init

end HealthInvAt

/-- The invariant holds of every worker after every sequence of calls. -/
theorem healthInv_track (cfg : HealthConfig) (wid : String) (ops : List Op) :
    HealthInvAt cfg wid (track cfg.toRegistryConfig wid ops) := by
  have key : ∀ (ops : List Op) (s : WorkerRegistry × History), HealthInvAt cfg wid s →
      HealthInvAt cfg wid (ops.foldl (fun s op => (apply cfg.toRegistryConfig s.1 op,
        s.2.step cfg.toRegistryConfig wid s.1 op)) s) := by
    intro ops
    induction ops with
    | nil => exact fun _ h => h
    | cons op ops ih => exact fun s h => ih _ (h.apply op)
  exact key ops _ HealthInv.init

/-- **The health of a registered worker along a run.** Its record exists and is not that of a dead
worker. Unless the record was revived since its last failure, its status is at least the class of
its score. It is at most one level above that class, unless a success was recorded since the last
decay and the last failure at a threshold. And once a failure was recorded since the worker last
registered, a score at or above the suspect threshold makes it suspect and not active. -/
theorem registered_health_classified (cfg : HealthConfig) (ops : List Op) (wid : String)
    (info : WorkerInfo) (hw : (run cfg.toRegistryConfig ops).workers.get? wid = some info) :
    let hist := (track cfg.toRegistryConfig wid ops).2
    ∃ h, (run cfg.toRegistryConfig ops).healthRecords.get? wid = some h ∧
      h.healthStatus ≠ .dead ∧
      (hist.revived = false →
        (classify cfg.toRegistryConfig h.penaltyScore).level ≤ h.healthStatus.level) ∧
      (hist.succeeded = false →
        h.healthStatus.level ≤ (classify cfg.toRegistryConfig h.penaltyScore).level + 1) ∧
      (hist.penalised = true → cfg.suspectThreshold ≤ h.penaltyScore →
        h.healthStatus = .suspect ∧ info.status ≠ .active) := by
  intro hist
  have hi := healthInv_track cfg wid ops
  unfold HealthInvAt at hi
  rw [track_fst] at hi
  have hs : (run cfg.toRegistryConfig ops).statusOf wid = some info.status := by
    rw [statusOf, hw, Option.map_some]
  obtain ⟨h, hh, hd⟩ := hi.registered (by rw [hs]; rfl)
  refine ⟨h, hh, hd, fun hr => hi.lower hr h hh hd, fun hc => hi.upper hc h hh hd, ?_⟩
  intro hp hsus
  obtain ⟨h₁, h₂⟩ := hi.suspect hp h _ hh hs hsus
  exact ⟨h₁, by rw [h₂]; decide⟩

/-- The default thresholds, with a decay to one half. -/
def halvingConfig : HealthConfig where
  decayFactor _ := 1 / 2
  round4 := id
  degraded_pos := by norm_num
  degraded_le_suspect := by norm_num
  decay_nonneg _ _ := by norm_num
  decay_le_one _ _ := by norm_num

/-- A worker that has just come up. -/
def freshWorker : WorkerInfo :=
  { workerId := "w1", endpointUrl := "http://10.0.0.5:9000", ipAddress := "10.0.0.5", port := 9000,
    lastHeartbeatUtc := 1 }

/-- A worker that registers and then fails with twelve points. -/
def penalisedRun : List Op := [.registerWorker freshWorker 1, .recordFailure "w1" 12 2]

theorem registered_health_classified_penalised :
    ∃ info h, (run halvingConfig.toRegistryConfig penalisedRun).workers.get? "w1" = some info ∧
      (run halvingConfig.toRegistryConfig penalisedRun).healthRecords.get? "w1" = some h ∧
      h.penaltyScore = 12 ∧ h.healthStatus = .suspect ∧ info.status ≠ .active := by
  have hw : (run halvingConfig.toRegistryConfig penalisedRun).workers.get? "w1" =
      some { freshWorker with penaltyScore := 12, status := .unhealthy } := by decide +kernel
  have hp : ((run halvingConfig.toRegistryConfig penalisedRun).healthRecords.get? "w1").map
      (·.penaltyScore) = some 12 := by decide +kernel
  obtain ⟨h, hh, -, -, -, hs⟩ := registered_health_classified halvingConfig penalisedRun "w1" _ hw
  have hscore : h.penaltyScore = 12 := by
    rw [hh] at hp
    exact Option.some.inj hp
  obtain ⟨h₁, h₂⟩ := hs (by decide +kernel) (by rw [hscore]; decide +kernel)
  exact ⟨_, h, hw, hh, hscore, h₁, h₂⟩

/-- The status of every registered worker is the class of its score, or one level above it; and a
worker at or above the suspect threshold is neither healthy nor active. -/
def Classified (cfg : RegistryConfig) (r : WorkerRegistry) : Prop :=
  ∀ wid info h, r.workers.get? wid = some info → r.healthRecords.get? wid = some h →
    (classify cfg h.penaltyScore).level ≤ h.healthStatus.level ∧
    h.healthStatus.level ≤ (classify cfg h.penaltyScore).level + 1 ∧
    (cfg.suspectThreshold ≤ h.penaltyScore → h.healthStatus ≠ .healthy ∧ info.status ≠ .active)

/-- A classified registry, read at one worker. -/
def classifiedAt (cfg : RegistryConfig) (r : WorkerRegistry) (wid : String) : Bool :=
  match r.workers.get? wid, r.healthRecords.get? wid with
  | some info, some h =>
    (classify cfg h.penaltyScore).level ≤ h.healthStatus.level &&
    h.healthStatus.level ≤ (classify cfg h.penaltyScore).level + 1 &&
    (!(cfg.suspectThreshold ≤ h.penaltyScore) ||
      (h.healthStatus ≠ .healthy && info.status ≠ .active))
  | _, _ => true

theorem Classified.classifiedAt {cfg : RegistryConfig} {r : WorkerRegistry} (hc : Classified cfg r)
    (wid : String) : classifiedAt cfg r wid = true := by
  unfold WorkerRegistry.classifiedAt
  split
  · rename_i info h hw hh
    obtain ⟨h₁, h₂, h₃⟩ := hc wid info h hw hh
    simp only [h₁, h₂, decide_true, Bool.true_and, Bool.or_eq_true, Bool.not_eq_true',
      decide_eq_false_iff_not, Bool.and_eq_true, decide_eq_true_eq]
    exact (em _).elim (fun hs => Or.inr (h₃ hs)) Or.inl
  · rfl

/-- A worker that returns after an eviction, one that registers again while suspect, and one whose
successes bring a suspect score below the degraded threshold are not classified by their score. -/
theorem classified_fails :
    ¬ Classified halvingConfig.toRegistryConfig (run halvingConfig.toRegistryConfig
      (penalisedRun ++ [.evictExpiredWorkers none 100, .registerWorker freshWorker 101])) ∧
    ¬ Classified halvingConfig.toRegistryConfig (run halvingConfig.toRegistryConfig
      (penalisedRun ++ [.registerWorker freshWorker 3])) ∧
    ¬ Classified halvingConfig.toRegistryConfig (run halvingConfig.toRegistryConfig
      (penalisedRun ++ List.replicate 20 (.recordSuccess "w1" 0 3))) := by
  refine ⟨fun h => ?_, fun h => ?_, fun h => ?_⟩
  · exact absurd (h.classifiedAt "w1") (by decide +kernel)
  · exact absurd (h.classifiedAt "w1") (by decide +kernel)
  · exact absurd (h.classifiedAt "w1") (by decide +kernel)

end WorkerRegistry

end Aidars
