import Aidars.M12.Service
import Aidars.Orchestrator.Cancellation

/-!
# Learning is replayed

At a restart the coordinator learns from the ledgers what it has learned before from the attempts as
they ended. The averages are taken over the lessons of each type of task in the order in which they
came (`get?_foldl_replayOne`). A restart takes them in the order of the times at which the attempts
ended, and of their identifiers where these are equal.

`Learning` states what the coordinator has learned at each time: the observations of the attempts
that have ended, and the averages over them. It is kept as long as an attempt does not change after
it has ended, and `live_eq_replay` states that then a restart learns the same.
-/

namespace Aidars.M12

open M7 (WorkloadTemporalState)

/-! ## The lessons of a type of task -/

namespace HistoricalObservation

/-- The type of task that an observation is counted for. -/
def typeKey (o : HistoricalObservation) : String := (o.taskType.bind nonEmpty).getD "unknown"

/-- What an observation teaches: the duration of a success, and whether it is a failure. -/
def teaches (o : HistoricalObservation) : Option ℚ × Bool :=
  (if o.outcome = .success then o.durationSeconds else none, o.outcome = .failure)

/-- The observation counts for the type of task. -/
def countsFor (taskType : String) (o : HistoricalObservation) : Bool :=
  o.counts && o.typeKey = taskType

/-- Observations of a type of task are in the order of their keys, or they teach the same. -/
def InOrder (o o' : HistoricalObservation) : Prop :=
  o.counts = true → o'.counts = true → o.typeKey = o'.typeKey →
    replayKey o ≤ replayKey o' ∨ o.teaches = o'.teaches

end HistoricalObservation

open HistoricalObservation

/-- The averages of a type of task after lessons. -/
def learnAll (state : Option WorkloadTemporalState) (lessons : List (Option ℚ × Bool)) :
    Option WorkloadTemporalState :=
  lessons.foldl (fun state x => some (learn (state.getD {}) x.1 none x.2)) state

variable {memory : WorkloadMemory} {o : HistoricalObservation} {os : List HistoricalObservation}
  {T : String}

/-- An observation that has not been taken in yet. -/
theorem replayOne_of_fresh {id : String} (hid : o.attemptId = some id)
    (hfresh : id ∉ memory.eventIds) :
    (replayOne memory o).workloads.get? T = learnAll (memory.workloads.get? T)
        (if o.countsFor T then [o.teaches] else []) ∧
      ∀ id', id' ∈ (replayOne memory o).eventIds → id' = id ∨ id' ∈ memory.eventIds := by
  unfold replayOne countsFor
  cases hc : o.counts with
  | false => exact ⟨rfl, fun id' h => .inr h⟩
  | true =>
    have hany : o.attemptId.any (· ∈ memory.eventIds) = false := by simp [hid, hfresh]
    simp only [Bool.not_true, Bool.false_eq_true, if_false, Bool.true_and,
      WorkloadMemory.ingestWorkloadResult, hany]
    refine ⟨?_, fun id' h => ?_⟩
    · rw [Dict.get?_set]
      by_cases hT : o.typeKey = T
      · subst hT
        rw [if_pos (by rfl), decide_eq_true rfl]
        rfl
      · rw [if_neg (fun he => hT he.symm), decide_eq_false hT]
        rfl
    · rw [hid] at h
      exact PySet.mem_insert.1 h

/-- **The averages of a type of task are those of its lessons, in the order in which they came.** -/
theorem get?_foldl_replayOne (hnodup : (os.map (·.attemptId)).Nodup)
    (hfresh : ∀ o ∈ os, ∃ id, o.attemptId = some id ∧ id ∉ memory.eventIds) :
    (os.foldl replayOne memory).workloads.get? T =
      learnAll (memory.workloads.get? T) ((os.filter (countsFor T)).map teaches) := by
  induction os generalizing memory with
  | nil => rfl
  | cons o os ih =>
    obtain ⟨hne, hnodup⟩ := List.nodup_cons.1 hnodup
    obtain ⟨id, hid, hnew⟩ := hfresh o List.mem_cons_self
    obtain ⟨hstate, hevents⟩ := replayOne_of_fresh (T := T) hid hnew
    rw [List.foldl_cons, ih hnodup fun o' ho' => ?_, hstate, List.filter_cons]
    · split_ifs <;> rfl
    · obtain ⟨id', hid', hnew'⟩ := hfresh o' (List.mem_cons_of_mem o ho')
      refine ⟨id', hid', fun h => ?_⟩
      rcases hevents id' h with rfl | h
      · exact hne (List.mem_map.2 ⟨o', ho', hid'.trans hid.symm⟩)
      · exact hnew' h

/-! ## Observations that count -/

variable {valid : ℚ → Bool} {a : TimedAttempt} {w : Option LedgerWorkload}

theorem counts_iff : o.counts = true ↔
    o.dataQuality = .valid ∧ (o.outcome = .success ∨ o.outcome = .failure) := by
  simp only [HistoricalObservation.counts, Bool.and_eq_true, Bool.or_eq_true, decide_eq_true_eq]

theorem counts_observe (h : (observe valid false a w).counts = true) :
    errorsOf valid false a w = [] ∧
      ((rate a.record).1 = .success ∨ (rate a.record).1 = .failure) := by
  obtain ⟨hquality, houtcome⟩ := counts_iff.1 h
  refine ⟨?_, houtcome⟩
  by_contra hne
  cases (if_neg hne).symm.trans hquality

/-- An attempt that counts has ended. -/
theorem finished_of_counts (h : (observe valid false a w).counts = true) :
    a.record.status.isTerminal = true ∧ ∃ f, a.times.finishedAt = some f := by
  obtain ⟨herrors, houtcome⟩ := counts_observe h
  have hterminal : a.record.status.isTerminal = true := by
    cases hs : a.record.status <;> simp [rate, hs] at houtcome <;> rfl
  refine ⟨hterminal, ?_⟩
  simp only [errorsOf, List.append_eq_nil_iff] at herrors
  have hend := herrors.1.1.2
  rw [terminalErrors, if_pos hterminal, List.append_eq_nil_iff] at hend
  cases hf : a.times.finishedAt with
  | none =>
    rw [hf] at hend
    cases hend.1
  | some f => exact ⟨f, rfl⟩

theorem typeKey_of_counts (h : (observe valid false a w).counts = true) :
    w.map (·.spec.taskType) = some (observe valid false a w).typeKey := by
  obtain ⟨herrors, -⟩ := counts_observe h
  simp only [errorsOf, List.append_eq_nil_iff] at herrors
  have hw := herrors.1.1.1.1.2
  cases w with
  | none => cases hw
  | some r =>
    have hne : r.spec.taskType ≠ "" := by
      intro he
      simp [workloadErrors, flag, he, strip] at hw
    simp [observe, typeKey, nonEmpty, hne]

theorem lesson_of_counts (h : (observe valid false a w).counts = true) :
    ∃ x, lesson a.record = some x ∧ (observe valid false a w).teaches = (x, x.isNone) := by
  obtain ⟨herrors, houtcome⟩ := counts_observe h
  simp only [errorsOf, List.append_eq_nil_iff] at herrors
  have hrate := herrors.2
  cases hs : a.record.status with
  | failed => exact ⟨none, by simp [lesson, hs], by simp [teaches, observe, rate, hs]⟩
  | succeeded =>
    cases hr : a.record.executionResult with
    | none => simp [rate, hs, hr] at houtcome
    | some result =>
      by_cases hsuccess : result.success = true
      · by_cases hcheckpoint : isCheckpoint a.record result = true
        · simp [rate, hs, hr, hsuccess, hcheckpoint] at houtcome
        · cases hd : attemptDuration a.record with
          | none => simp [rate, hs, hr, hsuccess, hcheckpoint, hd, flag] at hrate
          | some d =>
            refine ⟨some d, ?_, ?_⟩
            · simp [lesson, hs, hr, hcheckpoint, hd]
            · simp [teaches, observe, rate, hs, hr, hsuccess, hcheckpoint, hd]
      · simp [rate, hs, hr, hsuccess] at houtcome
  | queued => simp [rate, hs] at houtcome
  | assigned => simp [rate, hs] at houtcome
  | running => simp [rate, hs] at houtcome
  | lost => simp [rate, hs] at houtcome

theorem attemptId_observe (hne : a.record.attemptId ≠ "") :
    (observe valid false a w).attemptId = some a.record.attemptId := if_neg hne

/-- The key of an attempt that has ended at a reading that is not negative. -/
theorem replayKey_observe {f : ℚ} (hne : a.record.attemptId ≠ "")
    (hf : a.times.finishedAt = some f) (hpos : 0 ≤ f) :
    replayKey (observe (0 < ·) false a w) = toLex (f, a.record.attemptId) := by
  have hread : (timestampOrNone (0 < ·) (some f)).getD 0 = f := by
    simp only [timestampOrNone, Option.filter_some]
    split_ifs with hlt
    · rfl
    · exact le_antisymm hpos (by simpa using hlt)
  unfold replayKey
  rw [attemptId_observe hne]
  exact congrArg toLex (Prod.ext ((congrArg (fun v => (timestampOrNone (0 < ·) v).getD 0) hf).trans
    hread) rfl)

/-! ## What has been learned -/

/-- The observation of an attempt of the ledger. -/
def Live.observation (l : Live) (a : TimedAttempt) : HistoricalObservation :=
  M12.observe (0 < ·) false a (l.workloads.get? a.record.workloadId)

/-- Workloads are filed under their identifiers. -/
def Live.Filed (l : Live) : Prop :=
  ∀ w r, l.workloads.get? w = some r → r.spec.workloadId = w ∧ r.submittedAt ≤ l.clock

/-- The ledgers of the coordinator: no reading is later than the clock. -/
structure Recorded (l : Live) : Prop where
  sound : l.attempts.Sound
  clock : 0 ≤ l.clock
  past : ∀ a ∈ l.attempts.listAttempts, ∀ r ∈ a.times.readings, 0 ≤ r ∧ r ≤ l.clock
  filed : l.Filed
  registered : ∀ a ∈ l.attempts.listAttempts, ∃ r, l.workloads.get? a.record.workloadId = some r

/-- What the coordinator has learned from its ledgers. -/
structure Learning (l : Live) : Prop extends Recorded l where
  observed : ∀ o, o ∈ l.learned.observations ↔ ∃ a ∈ l.attempts.listAttempts,
    a.record.status.isTerminal = true ∧ o = l.observation a
  nodup : (l.learned.observations.map (·.attemptId)).Nodup
  byAttempt : ∀ id o, l.learned.byAttempt.get? id = some o →
    o ∈ l.learned.observations ∧ o.attemptId = some id
  memory : l.learned.memory = l.learned.observations.foldl replayOne {}
  ordered : l.learned.observations.Pairwise InOrder

variable {l l' : Live} {now seen : ℚ}

theorem makeAttemptId_ne_empty (w : String) (n : ℕ) : makeAttemptId w n ≠ "" := by
  intro h
  have := congrArg String.toList h
  simp [makeAttemptId] at this

namespace Recorded

theorem init : Recorded {} := by
  refine ⟨.empty, le_rfl, ?_, ?_, ?_⟩
  · exact fun a ha => absurd ha List.not_mem_nil
  · exact fun w r h => by cases h
  · exact fun a ha => absurd ha List.not_mem_nil

theorem attemptId_ne (h : Recorded l) (ha : a ∈ l.attempts.listAttempts) :
    a.record.attemptId ≠ "" := by
  have hget := TimedAttempts.getAttempt_eq_some.1 (h.sound.mem_listAttempts.1 ha)
  obtain ⟨i, -, hi⟩ := h.sound.ledger.mem_idsOf.1 (h.sound.ledger.filed _ _ hget.1).2
  exact hi ▸ makeAttemptId_ne_empty _ _

theorem attemptId_observation (h : Recorded l) (ha : a ∈ l.attempts.listAttempts) :
    (l.observation a).attemptId = some a.record.attemptId :=
  attemptId_observe (h.attemptId_ne ha)

/-- An attempt of the ledger is known by the identifier of its observation. -/
theorem eq_of_attemptId (h : Recorded l) {b : TimedAttempt} (ha : a ∈ l.attempts.listAttempts)
    (hb : b ∈ l.attempts.listAttempts)
    (hid : (l.observation a).attemptId = (l.observation b).attemptId) : a = b := by
  rw [h.attemptId_observation ha, h.attemptId_observation hb] at hid
  have hget := h.sound.mem_listAttempts.1 ha
  rw [Option.some.inj hid, h.sound.mem_listAttempts.1 hb] at hget
  exact (Option.some.inj hget).symm

/-- A call on an attempt keeps the ledgers. -/
theorem attempt (h : Recorded l) {op : TimedAttempts.Op} (hnow : l.clock ≤ now) (hseen : now ≤ seen)
    (hpermits : l.permits op = true) (d : DistributedIntelligence) :
    Recorded ⟨seen, l.workloads, l.attempts.apply now op, d⟩ where
  sound := h.sound.apply now op
  clock := (h.clock.trans hnow).trans hseen
  past := by
    have hkept : ∀ a ∈ l.attempts.listAttempts, ∀ r ∈ a.times.readings, 0 ≤ r ∧ r ≤ seen :=
      fun a ha r hr => ⟨(h.past a ha r hr).1, ((h.past a ha r hr).2.trans hnow).trans hseen⟩
    have hread : 0 ≤ now ∧ now ≤ seen := ⟨h.clock.trans hnow, hseen⟩
    intro a' ha' r hr
    rcases h.sound.cases_apply ha' with ⟨-, ha⟩ | ⟨w, p, g, -, rfl⟩ | ⟨a, ha, -, hchanged⟩
    · exact hkept a' ha r hr
    · obtain rfl : r = now := by simpa [AttemptTimes.readings] using hr
      exact hread
    · rcases hchanged.readings r hr with hr | rfl
      · exact hkept a ha r hr
      · exact hread
  filed w r hr := ⟨(h.filed w r hr).1, ((h.filed w r hr).2.trans hnow).trans hseen⟩
  registered := by
    intro a' ha'
    rcases h.sound.cases_apply ha' with ⟨-, ha⟩ | ⟨w, p, g, rfl, rfl⟩ | ⟨a, ha, -, hchanged⟩
    · exact h.registered a' ha
    · exact Option.isSome_iff_exists.1 hpermits
    · rw [hchanged.workloadId]
      exact h.registered a ha

end Recorded

namespace Learning

theorem init : Learning {} := by
  refine ⟨.init, fun o => ?_, List.nodup_nil, ?_, rfl, List.Pairwise.nil⟩
  · constructor
    · exact fun h => absurd h List.not_mem_nil
    · exact fun ⟨a, ha, _⟩ => absurd ha List.not_mem_nil
  · exact fun id o h => by cases h

/-- What is learned stays if the workloads are known as they were. -/
theorem of_workloads (h : Learning l) (hclock : l.clock ≤ l'.clock)
    (hattempts : l'.attempts = l.attempts) (hlearned : l'.learned = l.learned) (hfiled : l'.Filed)
    (hkept : ∀ w r, l.workloads.get? w = some r → ∃ r', l'.workloads.get? w = some r' ∧
      ∀ a, observe (0 < ·) false a (some r') = observe (0 < ·) false a (some r)) :
    Learning l' := by
  have hobservation : ∀ a ∈ l.attempts.listAttempts, l'.observation a = l.observation a := by
    intro a ha
    obtain ⟨r, hr⟩ := h.registered a ha
    obtain ⟨r', hr', he⟩ := hkept _ r hr
    rw [Live.observation, Live.observation, hr, hr', he]
  refine ⟨⟨hattempts ▸ h.sound, h.clock.trans hclock, fun a ha r hr => ?_, hfiled,
    fun a ha => ?_⟩, fun o => ?_, hlearned ▸ h.nodup, hlearned ▸ h.byAttempt, hlearned ▸ h.memory,
    hlearned ▸ h.ordered⟩
  · rw [hattempts] at ha
    exact ⟨(h.past a ha r hr).1, (h.past a ha r hr).2.trans hclock⟩
  · rw [hattempts] at ha
    obtain ⟨r, hr⟩ := h.registered a ha
    obtain ⟨r', hr', -⟩ := hkept _ r hr
    exact ⟨r', hr'⟩
  · rw [hlearned, hattempts, h.observed o]
    constructor
    · rintro ⟨a, ha, hs, rfl⟩
      exact ⟨a, ha, hs, (hobservation a ha).symm⟩
    · rintro ⟨a, ha, hs, rfl⟩
      exact ⟨a, ha, hs, hobservation a ha⟩

theorem submit (h : Learning l) {spec : WorkloadSpec}
    (hstep : l.step (.submit spec now) = some l') : Learning l' := by
  simp only [Live.step] at hstep
  split_ifs at hstep with hnow
  obtain rfl := Option.some.inj hstep
  cases hget : l.workloads.get? spec.workloadId with
  | some r₀ =>
    refine h.of_workloads hnow rfl rfl (fun w r hr => ?_) fun w r hr => ⟨r, hr, fun a => rfl⟩
    exact ⟨(h.filed w r hr).1, (h.filed w r hr).2.trans hnow⟩
  | none =>
    refine h.of_workloads hnow rfl rfl (fun w r hr => ?_) fun w r hr => ?_
    · simp only [Dict.get?_set] at hr
      split_ifs at hr with hw
      · obtain rfl := Option.some.inj hr
        exact ⟨hw.symm, le_rfl⟩
      · exact ⟨(h.filed w r hr).1, (h.filed w r hr).2.trans hnow⟩
    · have hne : w ≠ spec.workloadId := by
        rintro rfl
        rw [hget] at hr
        cases hr
      simp only [Dict.get?_set, if_neg hne]
      exact ⟨r, hr, fun a => rfl⟩

theorem addInputs (h : Learning l) {v : String} {hashes : Finset String}
    (hstep : l.step (.addInputs v hashes) = some l') : Learning l' := by
  obtain rfl := Option.some.inj hstep
  refine h.of_workloads le_rfl rfl rfl (fun w r hr => ?_) fun w r hr => ?_
  · simp only [Dict.get?_modify] at hr
    split_ifs at hr with hw
    · obtain ⟨r₀, hr₀, rfl⟩ := Option.map_eq_some_iff.1 hr
      exact hw ▸ h.filed v r₀ hr₀
    · exact h.filed w r hr
  · simp only [Dict.get?_modify]
    split_ifs with hw
    · subst hw
      rw [hr, Option.map_some]
      exact ⟨_, rfl, fun a => observe_some_congr rfl rfl⟩
    · exact ⟨r, hr, fun a => rfl⟩

end Learning

/-! ## An attempt changes -/

theorem find?_eq_some_of_unique {α : Type*} {l : List α} {p : α → Bool} {x : α} (hx : x ∈ l)
    (hp : p x = true) (hunique : ∀ y ∈ l, p y = true → y = x) : l.find? p = some x := by
  cases hfind : l.find? p with
  | none => exact absurd hp (List.find?_eq_none.1 hfind x hx)
  | some y => rw [hunique y (List.mem_of_find?_eq_some hfind) (List.find?_some hfind)]

theorem workloadById_singleton {r : LedgerWorkload} {w : String} (h : r.spec.workloadId = w) :
    (workloadById [r]).get? w = some r :=
  (Dict.get?_set ..).trans (if_pos h.symm)

theorem observeAttempt_of_fresh {d : DistributedIntelligence} {r : LedgerWorkload}
    {attempts : List TimedAttempt} (hnodup : (attempts.map (·.record.attemptId)).Nodup)
    (ha : a ∈ attempts) (hne : a.record.attemptId ≠ "") (hs : a.record.status.isTerminal = true)
    (hw : r.spec.workloadId = a.record.workloadId) (hpast : ∀ q ∈ a.times.readings, q ≤ now)
    (hsubmitted : r.submittedAt ≤ now) (hfresh : d.byAttempt.get? a.record.attemptId = none) :
    d.observeAttempt a (some r) attempts now =
      d.keep a.record.attemptId (d.observations ++ [observe (0 < ·) false a (some r)])
        (observe (0 < ·) false a (some r)) := by
  have hobserve : observe (validTimestamp now) false a (some r) =
      observe (0 < ·) false a (some r) :=
    observe_congr (fun q hq => validTimestamp_of_le (hpast q hq)) fun r' hr' => by
      obtain rfl := Option.some.inj hr'
      exact validTimestamp_of_le hsubmitted
  have hmem : ∀ o, o ∈ project [r] attempts now ↔ o ∈ attempts.map fun b =>
      observe (validTimestamp now) false b ((workloadById [r]).get? b.record.workloadId) :=
    fun o => (perm_project hnodup).mem_iff
  have hfind : (project [r] attempts now).find? (·.attemptId = some a.record.attemptId) =
      some (observe (0 < ·) false a (some r)) := by
    refine find?_eq_some_of_unique ?_ (decide_eq_true (attemptId_observe hne)) fun o ho hid => ?_
    · refine (hmem _).2 (List.mem_map.2 ⟨a, ha, ?_⟩)
      rw [workloadById_singleton hw, hobserve]
    · obtain ⟨b, hb, rfl⟩ := List.mem_map.1 ((hmem _).1 ho)
      have hid : b.record.attemptId = a.record.attemptId := by
        have := of_decide_eq_true hid
        simp only [observe, nonEmpty] at this
        split_ifs at this
        exact Option.some.inj this
      obtain rfl := List.inj_on_of_nodup_map hnodup hb ha hid
      rw [workloadById_singleton hw, hobserve]
  unfold DistributedIntelligence.observeAttempt
  simp only [hs, Bool.not_true, Bool.false_eq_true, if_false, hfind, hfresh]

theorem observeAttempt_of_unfinished {d : DistributedIntelligence} {r : LedgerWorkload}
    {attempts : List TimedAttempt} (hs : a.record.status.isTerminal = false) :
    d.observeAttempt a (some r) attempts now = d := by
  unfold DistributedIntelligence.observeAttempt
  simp only [hs, Bool.not_false, if_true]

namespace Learning

variable {op : TimedAttempts.Op} {m : Mark} {id : String} {b : TimedAttempt}

theorem unfinished (h : Learning l) (hrec : Recorded l') (hworkloads : l'.workloads = l.workloads)
    (hlearned : l'.learned = l.learned) (hsame : ∀ a, a.record.status.isTerminal = true →
      (a ∈ l'.attempts.listAttempts ↔ a ∈ l.attempts.listAttempts)) : Learning l' := by
  refine ⟨hrec, fun o => ?_, hlearned ▸ h.nodup, hlearned ▸ h.byAttempt, hlearned ▸ h.memory,
    hlearned ▸ h.ordered⟩
  have hobservation : l'.observation = l.observation := by
    funext a
    rw [Live.observation, Live.observation, hworkloads]
  rw [hlearned, h.observed o, hobservation]
  constructor
  · rintro ⟨a, ha, hs, rfl⟩
    exact ⟨a, (hsame a hs).2 ha, hs, rfl⟩
  · rintro ⟨a, ha, hs, rfl⟩
    exact ⟨a, (hsame a hs).1 ha, hs, rfl⟩

theorem finished (h : Learning l) (hrec : Recorded l') (hworkloads : l'.workloads = l.workloads)
    (ha : a ∈ l'.attempts.listAttempts) (hs : a.record.status.isTerminal = true)
    (hfresh : ∀ b ∈ l.attempts.listAttempts, b.record.status.isTerminal = true →
      b.record.attemptId ≠ a.record.attemptId)
    (hended : ∀ b, b.record.status.isTerminal = true →
      (b ∈ l'.attempts.listAttempts ↔ b ∈ l.attempts.listAttempts ∨ b = a))
    (hlearned : l'.learned = l.learned.keep a.record.attemptId
      (l.learned.observations ++ [l'.observation a]) (l'.observation a))
    (hordered : ∀ b ∈ l.attempts.listAttempts, InOrder (l.observation b) (l'.observation a)) :
    Learning l' := by
  have hobservation : l'.observation = l.observation := by
    funext a
    rw [Live.observation, Live.observation, hworkloads]
  have hid := hrec.attemptId_observation ha
  have hobservations : l'.learned.observations = l.learned.observations ++ [l'.observation a] :=
    congrArg DistributedIntelligence.observations hlearned
  refine ⟨hrec, fun o => ?_, ?_, fun id o ho => ?_, ?_, ?_⟩
  · rw [hobservations, List.mem_append, List.mem_singleton, h.observed o, hobservation]
    constructor
    · rintro (⟨b, hb, hs, rfl⟩ | rfl)
      · exact ⟨b, (hended b hs).2 (.inl hb), hs, rfl⟩
      · exact ⟨a, ha, hs, rfl⟩
    · rintro ⟨b, hb, hs, rfl⟩
      rcases (hended b hs).1 hb with hb | rfl
      · exact .inl ⟨b, hb, hs, rfl⟩
      · exact .inr rfl
  · rw [hobservations, List.map_append, List.nodup_append]
    refine ⟨h.nodup, List.nodup_singleton _, fun x hx y hy => ?_⟩
    obtain ⟨o, ho, rfl⟩ := List.mem_map.1 hx
    obtain ⟨b, hb, hsb, rfl⟩ := (h.observed o).1 ho
    rw [List.mem_singleton.1 hy, h.attemptId_observation hb]
    exact fun he => hfresh b hb hsb (Option.some.inj (he.trans hid))
  · have hget : (l.learned.byAttempt.set a.record.attemptId (l'.observation a)).get? id = some o :=
      (congrArg (fun d : DistributedIntelligence => d.byAttempt.get? id) hlearned).symm.trans ho
    rw [Dict.get?_set] at hget
    rw [hobservations]
    split_ifs at hget with he
    · obtain rfl := Option.some.inj hget
      exact ⟨List.mem_append_right _ List.mem_cons_self, he ▸ hid⟩
    · obtain ⟨hmem, ho⟩ := h.byAttempt id o hget
      exact ⟨List.mem_append_left _ hmem, ho⟩
  · have hmemory : l'.learned.memory = replayOne l.learned.memory (l'.observation a) :=
      congrArg DistributedIntelligence.memory hlearned
    rw [hmemory, hobservations, List.foldl_append, h.memory]
    rfl
  · rw [hobservations, List.pairwise_append]
    refine ⟨h.ordered, List.pairwise_singleton _ _, fun o ho o' ho' => ?_⟩
    obtain ⟨b, hb, -, rfl⟩ := (h.observed o).1 ho
    rw [List.mem_singleton.1 ho']
    exact hordered b hb

theorem inOrder_ended (h : Learning l) (hnow : l.clock ≤ now)
    (ha : a ∈ l.attempts.listAttempts) (hb : b ∈ l.attempts.listAttempts)
    (hties : b.times.finishedAt = some now → a.record.attemptId < b.record.attemptId →
      l.taskTypeOf b.record.workloadId = l.taskTypeOf a.record.workloadId →
        Commute b.record (m.write a.record)) :
    InOrder (l.observation b) (l.observation (TimedAttempts.ended m now a)) := by
  intro hcb hca htype
  have hfixed := AttemptRegistry.fixed_write m a.record
  have hid : (TimedAttempts.ended m now a).record.attemptId = a.record.attemptId := hfixed.attemptId
  obtain ⟨-, f, hf⟩ := finished_of_counts hcb
  obtain ⟨hpos, hpast⟩ := h.past b hb f (by simp [AttemptTimes.readings, hf])
  have hkeyb : replayKey (l.observation b) = toLex (f, b.record.attemptId) :=
    replayKey_observe (h.attemptId_ne hb) hf hpos
  have hkeya : replayKey (l.observation (TimedAttempts.ended m now a)) =
      toLex (now, a.record.attemptId) := by
    have hkey := replayKey_observe (a := TimedAttempts.ended m now a)
      (w := l.workloads.get? (TimedAttempts.ended m now a).record.workloadId)
      (hid ▸ h.attemptId_ne ha) (f := now) rfl (h.clock.trans hnow)
    rwa [hid] at hkey
  rw [hkeyb, hkeya, Prod.Lex.toLex_le_toLex]
  rcases (hpast.trans hnow).lt_or_eq with hlt | rfl
  · exact .inl (.inl hlt)
  · rcases le_or_gt b.record.attemptId a.record.attemptId with hle | hgt
    · exact .inl (.inr ⟨rfl, hle⟩)
    · right
      have htypes : l.taskTypeOf b.record.workloadId = l.taskTypeOf a.record.workloadId := by
        have hwa : l.taskTypeOf (TimedAttempts.ended m f a).record.workloadId =
            l.taskTypeOf a.record.workloadId := congrArg l.taskTypeOf hfixed.workloadId
        have htb : l.taskTypeOf b.record.workloadId = some (l.observation b).typeKey :=
          typeKey_of_counts hcb
        rw [htb, htype, ← hwa]
        exact (typeKey_of_counts hca).symm
      obtain ⟨x, hx, hteachb⟩ := lesson_of_counts hcb
      obtain ⟨y, hy, hteacha⟩ := lesson_of_counts hca
      have hy : lesson (m.write a.record) = some y := hy
      rcases hties hf hgt htypes with he | he | he
      · cases hx.symm.trans he
      · cases hy.symm.trans he
      · obtain rfl := Option.some.inj (hx.symm.trans (he.trans hy))
        exact hteachb.trans hteacha.symm

theorem isTerminal_write (m : Mark) (r : AttemptRecord) : (m.write r).status.isTerminal = true := by
  cases m <;> rfl

theorem observe_of_unfinished (hrec : Recorded l)
    (hquiet : ∀ a ∈ l.attempts.listAttempts, a.record.attemptId = id →
      a.record.status.isTerminal = false) : l.observe id seen = l.learned := by
  unfold Live.observe
  cases hget : l.attempts.getAttempt id with
  | none => rfl
  | some a =>
    have hid := hrec.sound.attemptId hget
    have ha : a ∈ l.attempts.listAttempts := hrec.sound.mem_listAttempts.2 (hid ▸ hget)
    obtain ⟨r, hr⟩ := hrec.registered a ha
    simp only [hr]
    exact observeAttempt_of_unfinished (hquiet a ha hid)

theorem observe_of_finished (hrec : Recorded l) (hseen : l.clock ≤ seen)
    (ha : a ∈ l.attempts.listAttempts) (hs : a.record.status.isTerminal = true)
    (hfresh : l.learned.byAttempt.get? a.record.attemptId = none) :
    l.observe a.record.attemptId seen = l.learned.keep a.record.attemptId
      (l.learned.observations ++ [l.observation a]) (l.observation a) := by
  have hget := hrec.sound.mem_listAttempts.1 ha
  obtain ⟨r, hr⟩ := hrec.registered a ha
  obtain ⟨hw, hsubmitted⟩ := hrec.filed _ r hr
  have hobservation : l.observation a = M12.observe (0 < ·) false a (some r) := by
    rw [Live.observation, hr]
  unfold Live.observe
  simp only [hget, hr, hobservation]
  exact observeAttempt_of_fresh (hrec.sound.nodup_listAttemptsForWorkload _)
    (hrec.sound.mem_listAttemptsForWorkload.2 ⟨hget, rfl⟩) (hrec.attemptId_ne ha) hs hw
    (fun q hq => (hrec.past a ha q hq).2.trans hseen) (hsubmitted.trans hseen) hfresh

/-- **A call on an attempt that has not ended.** -/
theorem attempt (h : Learning l) (hends : EndsOnce l (.attempt op now seen))
    (hstep : l.step (.attempt op now seen) = some l') : Learning l' := by
  simp only [Live.step] at hstep
  split_ifs at hstep with hguard
  obtain rfl := Option.some.inj hstep
  obtain ⟨hnow, hseen, hpermits⟩ := hguard
  have hrec := h.toRecorded.attempt hnow hseen hpermits
  have hids : ∀ a : TimedAttempt, a.record.attemptId ≠ op.target l.attempts →
      (a ∈ (l.attempts.apply now op).listAttempts ↔ a ∈ l.attempts.listAttempts) :=
    fun a hid => h.sound.mem_apply_of_ne hid
  have hold : ∀ a ∈ l.attempts.listAttempts, a.record.attemptId = op.target l.attempts →
      a.record.status.isTerminal = false := by
    intro a ha hid
    have hget := (TimedAttempts.getAttempt_eq_some.1 (h.sound.mem_listAttempts.1 ha)).1
    rw [hid] at hget
    cases op with
    | mark id m => exact (hends a.record hget).1
    | createAttempt w p g => exact hends a.record hget
    | markAssigned id x => exact hends a.record hget
    | markRunning id => exact hends a.record hget
  have hquiet : (∀ a ∈ (l.attempts.apply now op).listAttempts,
      a.record.attemptId = op.target l.attempts → a.record.status.isTerminal = false) →
      Learning ⟨seen, l.workloads, l.attempts.apply now op,
        Live.observe ⟨seen, l.workloads, l.attempts.apply now op, l.learned⟩
          (op.target l.attempts) seen⟩ := by
    intro hnew
    refine h.unfinished (hrec _) rfl (observe_of_unfinished (hrec l.learned) hnew) fun a hs => ?_
    by_cases hid : a.record.attemptId = op.target l.attempts
    · constructor
      · exact fun ha => absurd (hnew a ha hid) (by simp [hs])
      · exact fun ha => absurd (hold a ha hid) (by simp [hs])
    · exact hids a hid
  cases hget : (l.attempts.apply now op).getAttempt (op.target l.attempts) with
  | none =>
    refine hquiet fun a ha hid => ?_
    have hgone := (h.sound.apply now op).mem_listAttempts.1 ha
    rw [hid, hget] at hgone
    cases hgone
  | some a' =>
    have hid := (h.sound.apply now op).attemptId hget
    have ha' : a' ∈ (l.attempts.apply now op).listAttempts :=
      (h.sound.apply now op).mem_listAttempts.2 (hid ▸ hget)
    have honly : ∀ b ∈ (l.attempts.apply now op).listAttempts,
        b.record.attemptId = op.target l.attempts → b = a' := by
      intro b hb hb'
      have hgetb := (h.sound.apply now op).mem_listAttempts.1 hb
      rw [hb', hget] at hgetb
      exact (Option.some.inj hgetb).symm
    rcases TimedAttempts.getAttempt_apply_target hget with ⟨w, p, g, -, rfl⟩ | ⟨a, ha, hchanged⟩
    · exact hquiet fun b hb hb' => honly b hb hb' ▸ rfl
    · rcases hchanged.status with hs | ⟨id, m, rfl, rfl⟩
      · exact hquiet fun b hb hb' => honly b hb hb' ▸ hs
      · -- the attempt ends
        have hida : a.record.attemptId = id := h.sound.attemptId ha
        have hmem : a ∈ l.attempts.listAttempts := h.sound.mem_listAttempts.2 (hida.symm ▸ ha)
        have hs := isTerminal_write m a.record
        have hfresh : ∀ b ∈ l.attempts.listAttempts, b.record.status.isTerminal = true →
            b.record.attemptId ≠ (TimedAttempts.ended m now a).record.attemptId := by
          intro b hb hsb he
          rw [hold b hb (he.trans hid)] at hsb
          cases hsb
        refine h.finished (a := TimedAttempts.ended m now a) (hrec _) rfl ha' hs hfresh
          (fun b hsb => ?_) ?_ fun b hb => ?_
        · by_cases hb : b.record.attemptId = id
          · constructor
            · exact fun hmemb => .inr (honly b hmemb hb)
            · rintro (hmemb | rfl)
              · rw [hold b hmemb hb] at hsb
                cases hsb
              · exact ha'
          · refine (hids b hb).trans ⟨.inl, ?_⟩
            rintro (hmemb | rfl)
            · exact hmemb
            · exact absurd hid hb
        · rw [← hid]
          refine observe_of_finished (hrec l.learned) le_rfl ha' hs ?_
          cases hseen : l.learned.byAttempt.get? (TimedAttempts.ended m now a).record.attemptId with
          | none => rfl
          | some o =>
            obtain ⟨ho, hido⟩ := h.byAttempt _ o hseen
            obtain ⟨b, hb, hsb, rfl⟩ := (h.observed o).1 ho
            rw [h.attemptId_observation hb] at hido
            exact absurd (Option.some.inj hido) (hfresh b hb hsb)
        · refine h.inOrder_ended hnow hmem hb fun hf hlt htype => ?_
          exact (hends a.record (TimedAttempts.getAttempt_eq_some.1 ha).1).2 b hb hf
            (hida ▸ hlt) htype

end Learning

/-! ## The replay -/

theorem workloadById_values (h : l.Filed) : workloadById l.workloads.values = l.workloads := by
  have hentries : l.workloads.values.map (fun w => (w.spec.workloadId, w)) =
      l.workloads.entries := by
    unfold Dict.values
    rw [List.map_map]
    refine (List.map_congr_left fun e he => ?_).trans (List.map_id _)
    exact Prod.ext (h e.1 e.2 (Dict.mem_entries.1 he)).1 rfl
  refine Dict.ext_entries ?_
  unfold workloadById
  rw [hentries]
  exact Dict.entries_ofList l.workloads.nodup

theorem perm_project_ledgers (h : Recorded l) (hnow : l.clock ≤ now) :
    (project l.workloads.values l.attempts.listAttempts now).Perm
      (l.attempts.listAttempts.map l.observation) := by
  refine (perm_project h.sound.nodup_listAttempts).trans (List.Perm.of_eq ?_)
  refine List.map_congr_left fun a ha => ?_
  rw [workloadById_values h.filed]
  refine observe_congr (fun q hq => ?_) fun r hr => ?_
  · exact validTimestamp_of_le ((h.past a ha q hq).2.trans hnow)
  · exact validTimestamp_of_le ((h.filed _ r hr).2.trans hnow)

theorem learning_step {e : Event} (h : Learning l) (hends : EndsOnce l e)
    (hstep : l.step e = some l') : Learning l' := by
  cases e with
  | submit spec now => exact h.submit hstep
  | addInputs w hashes => exact h.addInputs hstep
  | attempt op now seen => exact h.attempt hends hstep

namespace Learning

theorem nodup_map_observation (h : Recorded l) :
    ((l.attempts.listAttempts.map l.observation).map (·.attemptId)).Nodup := by
  have hids : (l.attempts.listAttempts.map l.observation).map (·.attemptId) =
      (l.attempts.listAttempts.map (·.record.attemptId)).map some := by
    rw [List.map_map, List.map_map]
    exact List.map_congr_left fun a ha => h.attemptId_observation ha
  rw [hids]
  exact h.sound.nodup_listAttempts.map (Option.some_injective _)

theorem perm_filter (h : Learning l) (hnow : l.clock ≤ now) (T : String) :
    ((project l.workloads.values l.attempts.listAttempts now).filter (countsFor T)).Perm
      (l.learned.observations.filter (countsFor T)) := by
  refine ((perm_project_ledgers h.toRecorded hnow).filter _).trans ?_
  refine (List.perm_ext_iff_of_nodup ?_ ?_).2 fun o => ?_
  · exact (List.Nodup.of_map _ (nodup_map_observation h.toRecorded)).filter _
  · exact (List.Nodup.of_map _ h.nodup).filter _
  · rw [List.mem_filter, List.mem_filter, h.observed o, List.mem_map]
    constructor
    · rintro ⟨⟨a, ha, rfl⟩, hc⟩
      have hcounts : (l.observation a).counts = true := (Bool.and_eq_true_iff.1 hc).1
      exact ⟨⟨a, ha, (finished_of_counts hcounts).1, rfl⟩, hc⟩
    · rintro ⟨⟨a, ha, -, rfl⟩, hc⟩
      exact ⟨⟨a, ha, rfl⟩, hc⟩

/-- The averages are the same. -/
theorem memory_replay (h : Learning l) (hnow : l.clock ≤ now) (T : String) :
    (l.replay now).memory.workloads.get? T = l.learned.memory.workloads.get? T := by
  have hperm := perm_project_ledgers h.toRecorded hnow
  have hids := nodup_map_observation h.toRecorded
  have hknown : ∀ o ∈ l.attempts.listAttempts.map l.observation, ∃ id, o.attemptId = some id := by
    intro o ho
    obtain ⟨a, ha, rfl⟩ := List.mem_map.1 ho
    exact ⟨_, h.attemptId_observation ha⟩
  have hsorted : (sortOn replayKey
      (project l.workloads.values l.attempts.listAttempts now)).Perm
      (l.attempts.listAttempts.map l.observation) := (perm_sortOn _ _).trans hperm
  -- both lists of lessons are in the order of the keys
  have hlessons : ((sortOn replayKey (project l.workloads.values l.attempts.listAttempts
      now)).filter (countsFor T)).map teaches =
      (l.learned.observations.filter (countsFor T)).map teaches := by
    rw [← sortOn_filter,
      ← sortOn_eq_of_perm (fun o ho o' ho' hkey => ?_) (h.perm_filter hnow T).symm]
    · refine map_sortOn_of_pairwise (List.pairwise_filter.2 (h.ordered.imp ?_))
      intro o o' ho hc hc'
      obtain ⟨hcount, hkey⟩ := Bool.and_eq_true_iff.1 hc
      obtain ⟨hcount', hkey'⟩ := Bool.and_eq_true_iff.1 hc'
      exact ho hcount hcount' ((of_decide_eq_true hkey).trans (of_decide_eq_true hkey').symm)
    · have hmem := fun o => hperm.mem_iff (a := o)
      obtain ⟨a, ha, rfl⟩ := List.mem_map.1 ((hmem o).1 (List.mem_filter.1 ho).1)
      obtain ⟨b, hb, rfl⟩ := List.mem_map.1 ((hmem o').1 (List.mem_filter.1 ho').1)
      have hid : a.record.attemptId = b.record.attemptId := by
        have := congrArg (fun x => (ofLex x).2) hkey
        simpa [replayKey, h.attemptId_observation ha, h.attemptId_observation hb] using this
      have hab := h.eq_of_attemptId ha hb
        (by rw [h.attemptId_observation ha, h.attemptId_observation hb, hid])
      rw [hab]
  have hlive : ∀ o ∈ l.learned.observations, ∃ id, o.attemptId = some id := by
    intro o ho
    obtain ⟨a, ha, -, rfl⟩ := (h.observed o).1 ho
    exact ⟨_, h.attemptId_observation ha⟩
  have hreplay : (l.replay now).memory = (sortOn replayKey
      (project l.workloads.values l.attempts.listAttempts now)).foldl replayOne {} := rfl
  rw [hreplay, h.memory, get?_foldl_replayOne ((hsorted.map _).nodup_iff.2 hids) fun o ho => ?_,
    get?_foldl_replayOne h.nodup fun o ho => ?_, hlessons]
  · obtain ⟨id, hid⟩ := hlive o ho
    exact ⟨id, hid, PySet.notMem_empty id⟩
  · obtain ⟨id, hid⟩ := hknown o (hsorted.mem_iff.1 ho)
    exact ⟨id, hid, PySet.notMem_empty id⟩

theorem observations_replay (h : Learning l) (hnow : l.clock ≤ now) :
    l.learned.observations.Perm (l.replay now).observations ↔
      ∀ a ∈ l.attempts.listAttempts, a.record.status.isTerminal = true := by
  have hperm : (l.replay now).observations.Perm (l.attempts.listAttempts.map l.observation) :=
    perm_project_ledgers h.toRecorded hnow
  constructor
  · intro hsame a ha
    have hmem := (hsame.trans hperm).mem_iff.2 (List.mem_map_of_mem ha)
    obtain ⟨b, hb, hs, he⟩ := (h.observed _).1 hmem
    exact h.eq_of_attemptId ha hb (congrArg _ he) ▸ hs
  · intro hall
    refine List.Perm.trans ?_ hperm.symm
    refine (List.perm_ext_iff_of_nodup (List.Nodup.of_map _ h.nodup)
      (List.Nodup.of_map _ (nodup_map_observation h.toRecorded))).2 fun o => ?_
    rw [h.observed o, List.mem_map]
    constructor
    · rintro ⟨a, ha, -, rfl⟩
      exact ⟨a, ha, rfl⟩
    · rintro ⟨a, ha, rfl⟩
      exact ⟨a, ha, hall a ha, rfl⟩

end Learning

instance (l : Live) (e : Event) : Decidable (EndsOnce l e) := by
  unfold EndsOnce
  split <;> infer_instance

/-- **Live learning equals replay.** In every run in which an attempt does not change after it has
ended, and attempts of one type of task that end at one reading of the clock end in the order of
their identifiers or teach the same, a restart computes the averages that have been learned. It
computes the same observations if and only if every attempt has ended. -/
theorem live_eq_replay {es : List Event} (h : Along Live.step EndsOnce {} es)
    (hrun : runFrom Live.step {} es = some l) (hnow : l.clock ≤ now) :
    (∀ T, l.learned.memory.workloads.get? T = (l.replay now).memory.workloads.get? T) ∧
      (l.learned.observations.Perm (l.replay now).observations ↔
        ∀ a ∈ l.attempts.listAttempts, a.record.status.isTerminal = true) := by
  let Inv := fun l : Live => Learning l
  have hkept : ∀ l e l', Inv l → EndsOnce l e → Live.step l e = some l' → Inv l' :=
    fun l e l' hl he hstep => learning_step hl he hstep
  have hlearning : Learning l := Along.invariant hkept Learning.init h hrun
  exact ⟨fun T => (hlearning.memory_replay hnow T).symm, hlearning.observations_replay hnow⟩

/-- The calls for an attempt of a workload that is dispatched to a worker. -/
def dispatchEvents (w x : String) : List Event :=
  [.submit (Orchestrator.sampleSpec w) 1,
    .attempt (.createAttempt w (some
      { workloadId := w, selectedWorkerId := x, placementScore := 1, scoreBreakdown := ∅
        missingAssetsOnWorker := ∅, executionTier := "lan", decisionTimestampUtc := 0 }) none) 1 1,
    .attempt (.markAssigned (makeAttemptId w 1) x) 1 1,
    .attempt (.markRunning (makeAttemptId w 1)) 1 1]

/-- A success that took a second. -/
def sampleSuccess (w x : String) : WorkloadExecutionResult where
  workloadId := w
  workerId := x
  success := true
  outputAssetHashes := ∅
  executionDurationSeconds := 1

/-- An attempt ends once, and a restart learns its duration again. -/
theorem live_eq_replay_success :
    ∃ l, runFrom Live.step {} (dispatchEvents "w" "a" ++
        [.attempt (.mark "w#1" (.succeeded (sampleSuccess "w" "a"))) 2 3]) = some l ∧
      ((l.replay 4).memory.workloads.get? "compute").isSome = true ∧
      (∀ T, l.learned.memory.workloads.get? T = (l.replay 4).memory.workloads.get? T) ∧
      l.learned.observations.Perm (l.replay 4).observations := by
  have hrun : (runFrom Live.step {} (dispatchEvents "w" "a" ++
      [.attempt (.mark "w#1" (.succeeded (sampleSuccess "w" "a"))) 2 3])).map (fun l =>
        (decide (l.clock ≤ 4), ((l.replay 4).memory.workloads.get? "compute").isSome,
          decide (∀ a ∈ l.attempts.listAttempts, a.record.status.isTerminal = true))) =
      some (true, true, true) := by decide +kernel
  obtain ⟨l, hl, hv⟩ := Option.map_eq_some_iff.1 hrun
  obtain ⟨hclock, hv⟩ := Prod.mk.inj hv
  obtain ⟨hsome, hended⟩ := Prod.mk.inj hv
  have hends : Along Live.step EndsOnce {} (dispatchEvents "w" "a" ++
      [.attempt (.mark "w#1" (.succeeded (sampleSuccess "w" "a"))) 2 3]) := by decide +kernel
  obtain ⟨hmemory, hobservations⟩ := live_eq_replay hends hl (of_decide_eq_true hclock)
  exact ⟨l, hl, hsome, hmemory, hobservations.2 (of_decide_eq_true hended)⟩

/-- A step of the orchestrator with the calls that it makes. Afterwards both have the same
attempts. -/
def jointStep (cfg : Orchestrator.Config) (c : Orchestrator.State × Live)
    (x : Orchestrator.Action × List Event) : Option (Orchestrator.State × Live) :=
  (Orchestrator.step cfg c.1 x.1).bind fun s => (runFrom Live.step c.2 x.2).bind fun l =>
    if s.attempts = l.attempts.registry then some (s, l) else none

/-- A worker is evicted while a poll is in flight, and the poll brings a success. -/
def revivedSample : List (Orchestrator.Action × List Event) :=
  [(.registryOp (.registerWorker (Orchestrator.sampleWorker "a") 0), []),
    (.submitWorkload (Orchestrator.sampleSpec "w"), []), (.admissionPass ["w"], []),
    (.startRun "w", []),
    (.place "w" Orchestrator.sampleRanking 0 "group", dispatchEvents "w" "a"),
    (.callEvent "w" 0 .running, []),
    (.workerLost "a",
      [.attempt (.mark "w#1" (.lost (some "worker a evicted (heartbeat timeout)") ["a"])) 2 2]),
    (.callEvent "w" 0 (.terminal (some (sampleSuccess "w" "a"))), []),
    (.callEvent "w" 0 .closed, []),
    (.resume "w" 3, [.attempt (.mark "w#1" (.succeeded (sampleSuccess "w" "a"))) 3 3])]

/-- A lost attempt succeeds: its duration is not learned before the restart. -/
theorem revived_not_learned :
    ¬ ∀ (cfg : Orchestrator.Config) (xs : List (Orchestrator.Action × List Event))
      (s : Orchestrator.State) (l : Live) (now : ℚ),
      runFrom (jointStep cfg) ({}, {}) xs = some (s, l) → l.clock ≤ now →
      (∀ a ∈ l.attempts.listAttempts, a.record.status.isTerminal = true) →
      (∀ T, l.learned.memory.workloads.get? T = (l.replay now).memory.workloads.get? T) ∧
        l.learned.observations.Perm (l.replay now).observations := by
  intro hclaim
  have hrun : (runFrom (jointStep (Orchestrator.sampleConfig 2)) ({}, {}) revivedSample).map
      (fun c => (decide (c.2.clock ≤ 4),
        decide (∀ a ∈ c.2.attempts.listAttempts, a.record.status.isTerminal = true),
        (c.2.learned.memory.workloads.get? "compute").isSome,
        ((c.2.replay 4).memory.workloads.get? "compute").isSome)) =
      some (true, true, false, true) := by decide +kernel
  obtain ⟨c, hc, hv⟩ := Option.map_eq_some_iff.1 hrun
  obtain ⟨hclock, hv⟩ := Prod.mk.inj hv
  obtain ⟨hended, hv⟩ := Prod.mk.inj hv
  obtain ⟨hlive, hreplay⟩ := Prod.mk.inj hv
  obtain ⟨hmemory, -⟩ := hclaim _ _ c.1 c.2 4 hc (of_decide_eq_true hclock)
    (of_decide_eq_true hended)
  rw [hmemory "compute", hreplay] at hlive
  cases hlive

end Aidars.M12
