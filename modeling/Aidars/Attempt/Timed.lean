import Aidars.Attempt.Marks

/-!
# Attempts with their times

The registry of attempts with the clock readings that its calls record: when an attempt was queued,
assigned, started and finished. `apply` is a call at a clock reading.
-/

namespace Aidars

/-- The clock readings of an attempt. -/
structure AttemptTimes where
  queuedAt : ℚ
  assignedAt : Option ℚ := none
  startedAt : Option ℚ := none
  finishedAt : Option ℚ := none
  deriving DecidableEq

/-- The clock readings that are set. -/
def AttemptTimes.readings (r : AttemptTimes) : List ℚ :=
  r.queuedAt :: (r.assignedAt.toList ++ r.startedAt.toList ++ r.finishedAt.toList)

/-- The attempts with their clock readings. -/
structure TimedAttempts where
  registry : AttemptRegistry := {}
  times : Dict String AttemptTimes := ∅

/-- An attempt with its clock readings. -/
structure TimedAttempt where
  record : AttemptRecord
  times : AttemptTimes
  deriving DecidableEq

namespace TimedAttempts

/-- An attempt by its identifier. -/
def getAttempt (t : TimedAttempts) (attemptId : String) : Option TimedAttempt :=
  (t.registry.getAttempt attemptId).bind fun record =>
    (t.times.get? attemptId).map fun times => ⟨record, times⟩

/-- The attempts, in the order in which the registry holds them. -/
def listAttempts (t : TimedAttempts) : List TimedAttempt :=
  t.registry.attempts.keys.filterMap t.getAttempt

/-- The attempts of a workload, in creation order. -/
def listAttemptsForWorkload (t : TimedAttempts) (workloadId : String) : List TimedAttempt :=
  (t.registry.idsOf workloadId).filterMap t.getAttempt

/-- The calls that change attempts. -/
inductive Op
  | createAttempt (workloadId : String) (placementDecision : Option PlacementDecision)
      (executionGroup : Option ExecutionGroup)
  | markAssigned (attemptId workerId : String)
  | markRunning (attemptId : String)
  | mark (attemptId : String) (m : Mark)

/-- The attempt that a call creates or changes. -/
def Op.target (t : TimedAttempts) : Op → String
  | .createAttempt workloadId _ _ => t.registry.nextId workloadId
  | .markAssigned attemptId _ => attemptId
  | .markRunning attemptId => attemptId
  | .mark attemptId _ => attemptId

/-- The effect of a call at a clock reading. -/
def apply (t : TimedAttempts) (now : ℚ) : Op → TimedAttempts
  | .createAttempt workloadId placementDecision executionGroup =>
    { registry := t.registry.createAttempt workloadId placementDecision executionGroup
      times := t.times.set (t.registry.nextId workloadId) { queuedAt := now } }
  | .markAssigned attemptId workerId =>
    { registry := t.registry.markAssigned attemptId workerId
      times := t.times.modify attemptId fun r => { r with assignedAt := some now } }
  | .markRunning attemptId =>
    { registry := t.registry.markRunning attemptId
      times := t.times.modify attemptId fun r => { r with startedAt := some now } }
  | .mark attemptId m =>
    { registry := t.registry.mark attemptId m
      times := t.times.modify attemptId fun r => { r with finishedAt := some now } }

variable {t : TimedAttempts} {id : String}

/-- A call changes its target only. -/
theorem getAttempt_apply (t : TimedAttempts) (now : ℚ) (op : Op) (h : id ≠ op.target t) :
    (t.apply now op).registry.getAttempt id = t.registry.getAttempt id := by
  cases op with
  | createAttempt w p g => exact (Dict.get?_set ..).trans (if_neg h)
  | markAssigned id' x => exact AttemptRegistry.getAttempt_update.trans (if_neg h)
  | markRunning id' => exact AttemptRegistry.getAttempt_update.trans (if_neg h)
  | mark id' m => exact AttemptRegistry.getAttempt_update.trans (if_neg h)

theorem times_apply (t : TimedAttempts) (now : ℚ) (op : Op) (h : id ≠ op.target t) :
    (t.apply now op).times.get? id = t.times.get? id := by
  cases op with
  | createAttempt w p g => exact (Dict.get?_set ..).trans (if_neg h)
  | markAssigned id' x => exact (Dict.get?_modify ..).trans (if_neg h)
  | markRunning id' => exact (Dict.get?_modify ..).trans (if_neg h)
  | mark id' m => exact (Dict.get?_modify ..).trans (if_neg h)

theorem getAttempt_target (t : TimedAttempts) (now : ℚ) (op : Op)
    (h : (t.apply now op).registry.getAttempt (op.target t) = none) :
    t.registry.getAttempt (op.target t) = none := by
  cases op with
  | createAttempt w p g => cases ((Dict.get?_set ..).trans (if_pos rfl)).symm.trans h
  | markAssigned id' x =>
    exact Option.map_eq_none_iff.1
      ((AttemptRegistry.getAttempt_update.trans (if_pos rfl)).symm.trans h)
  | markRunning id' =>
    exact Option.map_eq_none_iff.1
      ((AttemptRegistry.getAttempt_update.trans (if_pos rfl)).symm.trans h)
  | mark id' m =>
    exact Option.map_eq_none_iff.1
      ((AttemptRegistry.getAttempt_update.trans (if_pos rfl)).symm.trans h)

/-- A call files the attempt it changes under the identifier it was filed under. -/
theorem attemptId_apply (t : TimedAttempts) (now : ℚ) (op : Op) {r : AttemptRecord}
    (h : (t.apply now op).registry.getAttempt (op.target t) = some r) :
    r.attemptId = op.target t ∨
      ∃ r₀, t.registry.getAttempt (op.target t) = some r₀ ∧ r.attemptId = r₀.attemptId := by
  cases op with
  | createAttempt w p g =>
    left
    obtain rfl := Option.some.inj (((Dict.get?_set ..).trans (if_pos rfl)).symm.trans h)
    rfl
  | markAssigned id' x =>
    obtain ⟨r₀, hr₀, rfl⟩ := Option.map_eq_some_iff.1
      ((AttemptRegistry.getAttempt_update.trans (if_pos rfl)).symm.trans h)
    exact .inr ⟨r₀, hr₀, rfl⟩
  | markRunning id' =>
    obtain ⟨r₀, hr₀, rfl⟩ := Option.map_eq_some_iff.1
      ((AttemptRegistry.getAttempt_update.trans (if_pos rfl)).symm.trans h)
    exact .inr ⟨r₀, hr₀, rfl⟩
  | mark id' m =>
    obtain ⟨r₀, hr₀, rfl⟩ := Option.map_eq_some_iff.1
      ((AttemptRegistry.getAttempt_update.trans (if_pos rfl)).symm.trans h)
    exact .inr ⟨r₀, hr₀, (AttemptRegistry.fixed_write m r₀).attemptId⟩

/-- An attempt that a mark has ended at a clock reading. -/
def ended (m : Mark) (now : ℚ) (a : TimedAttempt) : TimedAttempt :=
  ⟨m.write a.record, { a.times with finishedAt := some now }⟩

/-- An attempt after a call: its readings are those that it had and the one of the call, and it has
not ended unless the call is a mark. -/
structure Changed (now : ℚ) (op : Op) (a a' : TimedAttempt) : Prop where
  attemptId : a'.record.attemptId = a.record.attemptId
  workloadId : a'.record.workloadId = a.record.workloadId
  readings : ∀ r ∈ a'.times.readings, r ∈ a.times.readings ∨ r = now
  status : a'.record.status.isTerminal = false ∨ ∃ id m, op = .mark id m ∧ a' = ended m now a

theorem getAttempt_eq_some {a : TimedAttempt} : t.getAttempt id = some a ↔
    t.registry.getAttempt id = some a.record ∧ t.times.get? id = some a.times := by
  unfold getAttempt
  constructor
  · intro h
    obtain ⟨r, hr, h⟩ := Option.bind_eq_some_iff.1 h
    obtain ⟨x, hx, rfl⟩ := Option.map_eq_some_iff.1 h
    exact ⟨hr, hx⟩
  · rintro ⟨hr, hx⟩
    rw [hr, Option.bind_some, hx, Option.map_some]

/-- A call leaves the other attempts. -/
theorem getAttempt_apply_of_ne (t : TimedAttempts) (now : ℚ) (op : Op) (h : id ≠ op.target t) :
    (t.apply now op).getAttempt id = t.getAttempt id := by
  unfold getAttempt
  rw [t.getAttempt_apply now op h, t.times_apply now op h]

/-- An attempt that is rewritten with its readings. -/
theorem getAttempt_modify {f : AttemptRecord → AttemptRecord} {g : AttemptTimes → AttemptTimes}
    {a' : TimedAttempt} (hr : (t.registry.update id f).getAttempt id = some a'.record)
    (hx : (t.times.modify id g).get? id = some a'.times) :
    ∃ a, t.getAttempt id = some a ∧ a' = ⟨f a.record, g a.times⟩ := by
  rw [AttemptRegistry.getAttempt_update, if_pos rfl] at hr
  rw [Dict.get?_modify, if_pos rfl] at hx
  obtain ⟨r, hr, hfr⟩ := Option.map_eq_some_iff.1 hr
  obtain ⟨x, hx, hgx⟩ := Option.map_eq_some_iff.1 hx
  refine ⟨⟨r, x⟩, getAttempt_eq_some.2 ⟨hr, hx⟩, ?_⟩
  rw [hfr, hgx]

theorem getAttempt_apply_target {now : ℚ} {op : Op} {a' : TimedAttempt}
    (h : (t.apply now op).getAttempt (op.target t) = some a') :
    (∃ w p g, op = .createAttempt w p g ∧
      a' = ⟨t.registry.newAttempt w p g, { queuedAt := now }⟩) ∨
    ∃ a, t.getAttempt (op.target t) = some a ∧ Changed now op a a' := by
  obtain ⟨hr, hx⟩ := getAttempt_eq_some.1 h
  cases op with
  | createAttempt w p g =>
    obtain ⟨r', x'⟩ := a'
    obtain rfl := Option.some.inj (hr.symm.trans ((Dict.get?_set ..).trans (if_pos rfl)))
    obtain rfl := Option.some.inj (hx.symm.trans ((Dict.get?_set ..).trans (if_pos rfl)))
    exact .inl ⟨w, p, g, rfl, rfl⟩
  | markAssigned id' x =>
    obtain ⟨a, ha, rfl⟩ := getAttempt_modify hr hx
    refine .inr ⟨a, ha, rfl, rfl, fun q hq => ?_, .inl rfl⟩
    simp only [AttemptTimes.readings, List.mem_cons, List.mem_append, Option.mem_toList] at hq ⊢
    grind
  | markRunning id' =>
    obtain ⟨a, ha, rfl⟩ := getAttempt_modify hr hx
    refine .inr ⟨a, ha, rfl, rfl, fun q hq => ?_, .inl rfl⟩
    simp only [AttemptTimes.readings, List.mem_cons, List.mem_append, Option.mem_toList] at hq ⊢
    grind
  | mark id' m =>
    obtain ⟨a, ha, rfl⟩ := getAttempt_modify hr hx
    have hfixed := AttemptRegistry.fixed_write m a.record
    refine .inr ⟨a, ha, hfixed.attemptId, hfixed.workloadId, fun q hq => ?_,
      .inr ⟨id', m, rfl, rfl⟩⟩
    simp only [AttemptTimes.readings, List.mem_cons, List.mem_append, Option.mem_toList] at hq ⊢
    grind

/-- The dictionaries describe one ledger, and every attempt has clock readings. -/
structure Sound (t : TimedAttempts) : Prop where
  ledger : t.registry.Ledger
  timed : ∀ id r, t.registry.getAttempt id = some r → ∃ x, t.times.get? id = some x

namespace Sound

theorem empty : Sound {} := by
  refine ⟨AttemptRegistry.Ledger.empty, fun id r hr => ?_⟩
  cases hr

theorem attemptId (h : t.Sound) {a : TimedAttempt} (ha : t.getAttempt id = some a) :
    a.record.attemptId = id := (h.ledger.filed _ _ (getAttempt_eq_some.1 ha).1).1

theorem timed_modify (h : t.Sound) {f : AttemptRecord → AttemptRecord}
    {g : AttemptTimes → AttemptTimes} {r : AttemptRecord}
    (hr : (t.registry.update id f).getAttempt id = some r) :
    ∃ x, (t.times.modify id g).get? id = some x := by
  rw [AttemptRegistry.getAttempt_update, if_pos rfl] at hr
  obtain ⟨r₀, hr₀, -⟩ := Option.map_eq_some_iff.1 hr
  obtain ⟨x, hx⟩ := h.timed id r₀ hr₀
  exact ⟨g x, by rw [Dict.get?_modify, if_pos rfl, hx, Option.map_some]⟩

/-- A call keeps the ledger. -/
theorem apply (h : t.Sound) (now : ℚ) (op : Op) : (t.apply now op).Sound := by
  refine ⟨?_, fun id r hr => ?_⟩
  · cases op with
    | createAttempt w p g => exact h.ledger.createAttempt w p g
    | markAssigned id' x =>
      exact AttemptRegistry.Moves.ledger_update h.ledger id' fun r => ⟨rfl, rfl⟩
    | markRunning id' =>
      exact AttemptRegistry.Moves.ledger_update h.ledger id' fun r => ⟨rfl, rfl⟩
    | mark id' m =>
      refine AttemptRegistry.Moves.ledger_update h.ledger id' fun r => ?_
      exact ⟨(AttemptRegistry.fixed_write m r).attemptId,
        (AttemptRegistry.fixed_write m r).workloadId⟩
  · by_cases hid : id = op.target t
    · subst hid
      cases op with
      | createAttempt w p g => exact ⟨_, (Dict.get?_set ..).trans (if_pos rfl)⟩
      | markAssigned id' x => exact h.timed_modify hr
      | markRunning id' => exact h.timed_modify hr
      | mark id' m => exact h.timed_modify hr
    · rw [t.getAttempt_apply now op hid] at hr
      rw [t.times_apply now op hid]
      exact h.timed id r hr

theorem nodup_filterMap (h : t.Sound) {ids : List String} (hids : ids.Nodup) :
    ((ids.filterMap t.getAttempt).map (·.record.attemptId)).Nodup := by
  rw [List.map_filterMap]
  refine hids.filterMap fun id id' x hx hx' => ?_
  obtain ⟨a, ha, rfl⟩ := Option.map_eq_some_iff.1 hx
  obtain ⟨a', ha', he⟩ := Option.map_eq_some_iff.1 hx'
  rw [← h.attemptId ha, ← h.attemptId ha', he]

/-- No identifier is listed twice. -/
theorem nodup_listAttempts (h : t.Sound) :
    (t.listAttempts.map (·.record.attemptId)).Nodup :=
  h.nodup_filterMap t.registry.attempts.nodup

theorem nodup_listAttemptsForWorkload (h : t.Sound) (w : String) :
    ((t.listAttemptsForWorkload w).map (·.record.attemptId)).Nodup :=
  h.nodup_filterMap (h.ledger.nodup_idsOf w)

theorem mem_listAttempts (h : t.Sound) {a : TimedAttempt} :
    a ∈ t.listAttempts ↔ t.getAttempt a.record.attemptId = some a := by
  unfold listAttempts
  rw [List.mem_filterMap]
  constructor
  · rintro ⟨id, -, ha⟩
    rwa [h.attemptId ha]
  · intro ha
    exact ⟨_, Dict.mem_keys.2 ⟨_, (getAttempt_eq_some.1 ha).1⟩, ha⟩

theorem mem_listAttemptsForWorkload (h : t.Sound) {a : TimedAttempt} {w : String} :
    a ∈ t.listAttemptsForWorkload w ↔
      t.getAttempt a.record.attemptId = some a ∧ a.record.workloadId = w := by
  unfold listAttemptsForWorkload
  rw [List.mem_filterMap]
  constructor
  · rintro ⟨id, hid, ha⟩
    obtain ⟨r, hr, hw⟩ := h.ledger.present w id hid
    obtain rfl := Option.some.inj ((getAttempt_eq_some.1 ha).1.symm.trans hr)
    exact ⟨(h.attemptId ha).symm ▸ ha, hw⟩
  · rintro ⟨ha, rfl⟩
    exact ⟨_, (h.ledger.filed _ _ (getAttempt_eq_some.1 ha).1).2, ha⟩

theorem cases_apply (h : t.Sound) {now : ℚ} {op : Op} {a' : TimedAttempt}
    (ha : a' ∈ (t.apply now op).listAttempts) :
    (a'.record.attemptId ≠ op.target t ∧ a' ∈ t.listAttempts) ∨
    (∃ w p g, op = .createAttempt w p g ∧
      a' = ⟨t.registry.newAttempt w p g, { queuedAt := now }⟩) ∨
    ∃ a ∈ t.listAttempts, a.record.attemptId = op.target t ∧ Changed now op a a' := by
  have hget := (h.apply now op).mem_listAttempts.1 ha
  by_cases hid : a'.record.attemptId = op.target t
  · rw [hid] at hget
    rcases getAttempt_apply_target hget with hnew | ⟨a, ha, hchanged⟩
    · exact .inr (.inl hnew)
    · have hid := h.attemptId ha
      exact .inr (.inr ⟨a, h.mem_listAttempts.2 (hid ▸ ha), hid, hchanged⟩)
  · rw [t.getAttempt_apply_of_ne now op hid] at hget
    exact .inl ⟨hid, h.mem_listAttempts.2 hget⟩

theorem mem_apply_of_ne (h : t.Sound) {now : ℚ} {op : Op} {a : TimedAttempt}
    (hid : a.record.attemptId ≠ op.target t) :
    a ∈ (t.apply now op).listAttempts ↔ a ∈ t.listAttempts := by
  rw [(h.apply now op).mem_listAttempts, h.mem_listAttempts, t.getAttempt_apply_of_ne now op hid]

end Sound

end TimedAttempts

end Aidars
