import Aidars.Attempt.Ledger

/-!
# Marks that end attempts

Once an attempt runs, it is only changed by the marks that end it: success, failure and loss. A
`Mark` is one of them, and `Marked P reg reg'` says that `reg'` arises from `reg` by a list of
marks, each of which meets `P` in the registry that it is written to. What marks leave alone
(`Fixed`) and what they keep is proved by induction over the list.
-/

namespace Aidars

/-- A mark that ends an attempt. -/
inductive Mark
  | succeeded (result : WorkloadExecutionResult)
  | failed (category : Option FailureCategory) (reason : Option String)
      (result : Option WorkloadExecutionResult)
  | lost (reason : Option String) (unavailable : List String)

/-- The result is a checkpoint to continue from. -/
def WorkloadExecutionResult.savesCheckpoint (r : WorkloadExecutionResult) : Bool :=
  r.wasCheckpointed && r.checkpointHash.any (· ≠ "")

/-- What a mark writes to an attempt. -/
def Mark.write : Mark → AttemptRecord → AttemptRecord
  | .succeeded result, r => { r with
      status := .succeeded
      executionResult := some result
      executionGroup := AttemptRegistry.setGroupState .completed r.executionGroup
      checkpointHash := if result.savesCheckpoint then result.checkpointHash else r.checkpointHash
      checkpointRuntimeType :=
        if result.savesCheckpoint then result.checkpointRuntimeType else r.checkpointRuntimeType
      checkpointFormatVersion :=
        if result.savesCheckpoint then result.checkpointFormatVersion
        else r.checkpointFormatVersion }
  | .failed category reason result, r => { r with
      status := .failed
      failureCategory := category
      failureReason := reason
      executionGroup := AttemptRegistry.setGroupState .failed r.executionGroup
      executionResult := result <|> r.executionResult }
  | .lost reason unavailable, r => { r with
      status := .lost
      failureCategory := some .workerUnavailable
      failureReason := reason
      executionGroup := r.executionGroup.map fun g => { g with
        state := .lost
        unavailableWorkerIds := unavailable.foldl PySet.insert g.unavailableWorkerIds } }

namespace AttemptRegistry

/-- Write a mark. -/
def mark (reg : AttemptRegistry) (id : String) (m : Mark) : AttemptRegistry :=
  reg.update id m.write

variable {reg reg' reg'' : AttemptRegistry} {id id' : String} {r r' : AttemptRecord}
  {P Q : AttemptRegistry → String → Mark → Prop} {K : AttemptRegistry → Prop}

/-- The registry after a list of marks that meet `P`. -/
inductive Marked (P : AttemptRegistry → String → Mark → Prop) (reg : AttemptRegistry) :
    AttemptRegistry → Prop
  | refl : Marked P reg reg
  | step (reg' : AttemptRegistry) (id : String) (m : Mark) (h : Marked P reg reg')
      (hm : P reg' id m) : Marked P reg (reg'.mark id m)

namespace Marked

theorem single {m : Mark} (h : P reg id m) : Marked P reg (reg.mark id m) := .step reg id m .refl h

theorem markSucceeded {r : WorkloadExecutionResult} (h : P reg id (.succeeded r)) :
    Marked P reg (reg.markSucceeded id r) := single h

theorem markFailed {c : Option FailureCategory} {m : Option String}
    {r : Option WorkloadExecutionResult} (h : P reg id (.failed c m r)) :
    Marked P reg (reg.markFailed id c m r) := single h

theorem markLost {m : Option String} {ids : List String} (h : P reg id (.lost m ids)) :
    Marked P reg (reg.markLost id m ids) := single h

theorem trans (h₁ : Marked P reg reg') (h₂ : Marked P reg' reg'') : Marked P reg reg'' := by
  induction h₂ with
  | refl => exact h₁
  | step reg₂ id m _ hm ih => exact .step reg₂ id m ih hm

theorem mono (h : Marked P reg reg') (hPQ : ∀ reg id m, P reg id m → Q reg id m) :
    Marked Q reg reg' := by
  induction h with
  | refl => exact .refl
  | step reg₂ id m _ hm ih => exact .step reg₂ id m ih (hPQ _ _ _ hm)

/-- What every mark keeps, a list of marks keeps. -/
theorem invariant (h : Marked P reg reg') (hK : ∀ reg id m, K reg → P reg id m → K (reg.mark id m))
    (hreg : K reg) : K reg' := by
  induction h with
  | refl => exact hreg
  | step reg₂ id m _ hm ih => exact hK reg₂ id m ih hm

end Marked

/-! ## What marks leave alone -/

/-- Identity, workers and decisions of an attempt are as before. -/
structure Fixed (r r' : AttemptRecord) : Prop where
  attemptId : r'.attemptId = r.attemptId
  workloadId : r'.workloadId = r.workloadId
  workerId : r'.workerId = r.workerId
  placementDecision : r'.placementDecision = r.placementDecision
  members : r'.executionGroup.map (·.workerIds) = r.executionGroup.map (·.workerIds)

namespace Fixed

theorem refl (r : AttemptRecord) : Fixed r r := ⟨rfl, rfl, rfl, rfl, rfl⟩

theorem trans {r₁ r₂ r₃ : AttemptRecord} (h₁ : Fixed r₁ r₂) (h₂ : Fixed r₂ r₃) : Fixed r₁ r₃ :=
  ⟨h₂.attemptId.trans h₁.attemptId, h₂.workloadId.trans h₁.workloadId,
    h₂.workerId.trans h₁.workerId, h₂.placementDecision.trans h₁.placementDecision,
    h₂.members.trans h₁.members⟩

/-- An attempt names the workers that it named. -/
theorem names (h : Fixed r r') (x : String) : r'.names x = r.names x := by
  have hm := h.members
  unfold AttemptRecord.names
  rw [h.workerId]
  cases hg : r.executionGroup with
  | none =>
    rw [hg] at hm
    rw [Option.map_eq_none_iff.1 hm]
  | some g =>
    rw [hg] at hm
    obtain ⟨g', hg', hids⟩ := Option.map_eq_some_iff.1 hm
    rw [hg', Option.any_some, Option.any_some, hids]

end Fixed

theorem members_setGroupState (st : GroupState) (g : Option ExecutionGroup) :
    (setGroupState st g).map (·.workerIds) = g.map (·.workerIds) := by
  cases g <;> rfl

/-- A mark leaves identity and workers alone. -/
theorem fixed_write (m : Mark) (r : AttemptRecord) : Fixed r (m.write r) := by
  cases m with
  | succeeded result => exact ⟨rfl, rfl, rfl, rfl, members_setGroupState _ _⟩
  | failed category reason result => exact ⟨rfl, rfl, rfl, rfl, members_setGroupState _ _⟩
  | lost reason unavailable =>
    refine ⟨rfl, rfl, rfl, rfl, ?_⟩
    show (r.executionGroup.map _).map _ = _
    rw [Option.map_map]
    rfl

theorem getAttempt_mark (reg : AttemptRegistry) (id id' : String) (m : Mark) :
    (reg.mark id m).getAttempt id' =
      if id' = id then (reg.getAttempt id).map m.write else reg.getAttempt id' := getAttempt_update

theorem idsOf_mark (reg : AttemptRegistry) (id w : String) (m : Mark) :
    (reg.mark id m).idsOf w = reg.idsOf w := rfl

/-- Every attempt is there before and after a list of marks, with its identity and workers. -/
theorem Marked.record (h : Marked P reg reg') (id : String) :
    (∀ r, reg.getAttempt id = some r → ∃ r', reg'.getAttempt id = some r' ∧ Fixed r r') ∧
      ∀ r', reg'.getAttempt id = some r' → ∃ r, reg.getAttempt id = some r ∧ Fixed r r' := by
  induction h with
  | refl => exact ⟨fun r hr => ⟨r, hr, .refl r⟩, fun r hr => ⟨r, hr, .refl r⟩⟩
  | step reg₂ id₀ m _ _ ih =>
    rw [getAttempt_mark]
    split_ifs with hid
    · subst hid
      refine ⟨fun r hr => ?_, fun r' hr' => ?_⟩
      · obtain ⟨r₂, hr₂, hfix⟩ := ih.1 r hr
        exact ⟨m.write r₂, by rw [hr₂]; rfl, hfix.trans (fixed_write m r₂)⟩
      · obtain ⟨r₂, hr₂, rfl⟩ := Option.map_eq_some_iff.1 hr'
        obtain ⟨r, hr, hfix⟩ := ih.2 r₂ hr₂
        exact ⟨r, hr, hfix.trans (fixed_write m r₂)⟩
    · exact ih

theorem Marked.idsOf (h : Marked P reg reg') (w : String) : reg'.idsOf w = reg.idsOf w := by
  induction h with
  | refl => rfl
  | step reg₂ id₀ m _ _ ih => rw [idsOf_mark, ih]

end AttemptRegistry

end Aidars
