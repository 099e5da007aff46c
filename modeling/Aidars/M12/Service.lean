import Aidars.M12.History
import Aidars.M7.Risk

/-!
# Learning from attempts

The intelligence of the coordinator learns from an attempt when it ends (`observeAttempt`), and from
all attempts at a restart (`rebuildHistory`). Each observation is kept, and a valid success or
failure is taken into the moving averages of its type of task.
-/

namespace Aidars.M12

open M7 (EMA WorkloadTemporalState)

/-! ## The memory of types of tasks -/

/-- Take the result of a workload into the averages of its type. -/
def learn (state : WorkloadTemporalState) (duration ramPeak : Option ℚ) (failed : Bool) :
    WorkloadTemporalState where
  durationEma :=
    match duration with
    | some d => if !failed && 0 < d then state.durationEma.update d else state.durationEma
    | none => state.durationEma
  ramPeakEma :=
    match ramPeak with
    | some r => if !failed && 0 ≤ r then state.ramPeakEma.update r else state.ramPeakEma
    | none => state.ramPeakEma
  failureRateEma := state.failureRateEma.update (if failed then 1 else 0)

/-- The averages of the types of tasks, and the events that they have taken in. -/
structure WorkloadMemory where
  workloads : Dict String WorkloadTemporalState := ∅
  eventIds : PySet String := ∅

/-- Take the result of a workload in, once for each event. -/
def WorkloadMemory.ingestWorkloadResult (memory : WorkloadMemory) (workloadType : String)
    (duration ramPeak : Option ℚ) (failed : Bool) (eventId : Option String) : WorkloadMemory :=
  if eventId.any (· ∈ memory.eventIds) then memory
  else
    { workloads := memory.workloads.set workloadType
        (learn ((memory.workloads.get? workloadType).getD {}) duration ramPeak failed)
      eventIds := match eventId with
        | some id => memory.eventIds.insert id
        | none => memory.eventIds }

/-- The observation counts: it is a valid success or failure. -/
def HistoricalObservation.counts (o : HistoricalObservation) : Bool :=
  o.dataQuality = .valid && (o.outcome = .success || o.outcome = .failure)

/-- Take an observation into the averages. -/
def replayOne (memory : WorkloadMemory) (o : HistoricalObservation) : WorkloadMemory :=
  if !o.counts then memory
  else memory.ingestWorkloadResult ((o.taskType.bind nonEmpty).getD "unknown")
    (if o.outcome = .success then o.durationSeconds else none) none (o.outcome = .failure)
    o.attemptId

/-! ## The intelligence -/

/-- What the intelligence has learned. -/
structure DistributedIntelligence where
  memory : WorkloadMemory := {}
  observations : List HistoricalObservation := []
  byAttempt : Dict String HistoricalObservation := ∅

/-- The key by which observations are replayed. -/
def replayKey (o : HistoricalObservation) : ℚ ×ₗ String :=
  toLex (o.finishedAtUtc.getD 0, o.attemptId.getD "")

/-- Learn from the ledgers, after a restart. -/
def rebuildHistory (workloads : List LedgerWorkload) (attempts : List TimedAttempt) (now : ℚ) :
    DistributedIntelligence :=
  let observations := project workloads attempts now
  { memory := (sortOn replayKey observations).foldl replayOne {}
    observations
    byAttempt := Dict.ofList (observations.filterMap fun o => o.attemptId.map fun id => (id, o)) }

/-- An observation that contradicts an earlier one of its attempt. -/
def conflicting (o : HistoricalObservation) : HistoricalObservation :=
  { o with
    dataQuality := .invalid
    validationErrors := o.validationErrors ++ ["CONFLICTING_REPLAYED_ATTEMPT_IDENTITY"] }

/-- Put an observation in the place of the first one of its attempt. -/
def replaceFirst (o : HistoricalObservation) :
    List HistoricalObservation → List HistoricalObservation
  | [] => []
  | item :: rest => if item.attemptId = o.attemptId then o :: rest else item :: replaceFirst o rest

/-- Keep an observation under its attempt, and learn from it. -/
def DistributedIntelligence.keep (d : DistributedIntelligence) (id : String)
    (observations : List HistoricalObservation) (o : HistoricalObservation) :
    DistributedIntelligence where
  memory := replayOne d.memory o
  observations
  byAttempt := d.byAttempt.set id o

/-- Learn from an attempt that has changed. -/
def DistributedIntelligence.observeAttempt (d : DistributedIntelligence) (attempt : TimedAttempt)
    (workload : Option LedgerWorkload) (allAttempts : List TimedAttempt) (now : ℚ) :
    DistributedIntelligence :=
  match workload with
  | none => d
  | some w =>
    if !attempt.record.status.isTerminal then d
    else
      match (project [w] allAttempts now).find? (·.attemptId = some attempt.record.attemptId) with
      | none => d
      | some o =>
        match d.byAttempt.get? attempt.record.attemptId with
        | some previous =>
          if previous = o then d
          else d.keep attempt.record.attemptId (replaceFirst (conflicting o) d.observations)
            (conflicting o)
        | none => d.keep attempt.record.attemptId (d.observations ++ [o]) o

/-! ## The coordinator -/

/-- The ledgers, with what has been learned from them as they grew. -/
structure Live where
  clock : ℚ := 0
  workloads : Dict String LedgerWorkload := ∅
  attempts : TimedAttempts := {}
  learned : DistributedIntelligence := {}

/-- The events that change the ledgers. A workload is submitted, the outputs of its dependencies
become inputs of it, or a call changes an attempt, of which the observer is told at `seen`. -/
inductive Event
  | submit (spec : WorkloadSpec) (now : ℚ)
  | addInputs (workloadId : String) (hashes : Finset String)
  | attempt (op : TimedAttempts.Op) (now seen : ℚ)

/-- The observer is told of an attempt. -/
def Live.observe (l : Live) (attemptId : String) (seen : ℚ) : DistributedIntelligence :=
  match l.attempts.getAttempt attemptId with
  | none => l.learned
  | some a => l.learned.observeAttempt a (l.workloads.get? a.record.workloadId)
      (l.attempts.listAttemptsForWorkload a.record.workloadId) seen

/-- More inputs of a workload. -/
def LedgerWorkload.addInputs (hashes : Finset String) (r : LedgerWorkload) : LedgerWorkload :=
  { r with spec := { r.spec with inputAssetHashes := r.spec.inputAssetHashes ∪ hashes } }

/-- Attempts are created for registered workloads. -/
def Live.permits (l : Live) : TimedAttempts.Op → Bool
  | .createAttempt workloadId _ _ => (l.workloads.get? workloadId).isSome
  | _ => true

/-- A step; the readings of the clock do not decrease. -/
def Live.step (l : Live) : Event → Option Live
  | .submit spec now =>
    if l.clock ≤ now then
      some { l with
        clock := now
        workloads := match l.workloads.get? spec.workloadId with
          | some _ => l.workloads
          | none => l.workloads.set spec.workloadId ⟨spec, now⟩ }
    else none
  | .addInputs w hashes =>
    some { l with workloads := l.workloads.modify w (LedgerWorkload.addInputs hashes) }
  | .attempt op now seen =>
    if l.clock ≤ now ∧ now ≤ seen ∧ l.permits op then
      let l' := { l with clock := seen, attempts := l.attempts.apply now op }
      some { l' with learned := l'.observe (op.target l.attempts) seen }
    else none

/-- What a restart learns from the ledgers. -/
def Live.replay (l : Live) (now : ℚ) : DistributedIntelligence :=
  rebuildHistory l.workloads.values l.attempts.listAttempts now

/-! ## Lessons -/

/-- What a call teaches: nothing, a failure, or a success with a duration. -/
def lesson (a : AttemptRecord) : Option (Option ℚ) :=
  match a.status with
  | .failed => some none
  | .succeeded =>
    if a.executionResult.any (isCheckpoint a) then none else some (attemptDuration a)
  | _ => none

/-- Two attempts of one type of task, of which the first one ended in the list is the second by
identifier, teach the same or one of them nothing. -/
def Commute (a b : AttemptRecord) : Prop := lesson a = none ∨ lesson b = none ∨ lesson a = lesson b

instance (a b : AttemptRecord) : Decidable (Commute a b) :=
  inferInstanceAs (Decidable (_ ∨ _ ∨ _))

/-- The type of task of a workload. -/
def Live.taskTypeOf (l : Live) (workloadId : String) : Option String :=
  (l.workloads.get? workloadId).map (·.spec.taskType)

/-- An attempt changes only until it has ended, and when it ends, no attempt of the same type of
task with a later identifier has ended at the same reading of the clock and taught otherwise. -/
def EndsOnce (l : Live) : Event → Prop
  | .attempt (.mark id m) now _ => ∀ a ∈ l.attempts.registry.getAttempt id,
      a.status.isTerminal = false ∧
        ∀ b ∈ l.attempts.listAttempts, b.times.finishedAt = some now →
          id < b.record.attemptId →
          l.taskTypeOf b.record.workloadId = l.taskTypeOf a.workloadId →
          Commute b.record (m.write a)
  | .attempt op _ _ => ∀ a ∈ l.attempts.registry.getAttempt (op.target l.attempts),
      a.status.isTerminal = false
  | _ => True

end Aidars.M12
