import Aidars.Attempt.Marks
import Aidars.Orchestrator.Specs

/-!
# Which marks a step writes

Every step of a coordinator run but a placement changes the attempts by marks alone. The segment
after an answer marks the attempt of its dispatch and fails the attempts that a success supersedes
(`Cause`); the members that it reports lost belong to the dispatch, or were reported or recorded
unavailable. The steps outside the runs mark attempts lost, each for a worker that the attempt names
(`Evicts`).
-/

namespace Aidars.Orchestrator

open AttemptRegistry (Marked Fixed)

variable {cfg : Config} {s s' : State} {w x : String} {f : Frame} {d : Dispatch} {reply : Reply}
  {reg reg' : AttemptRegistry} {a : Action}

/-! ## The answer of a dispatch -/

/-- The marks of the segment that handles the answer of a dispatch. -/
inductive Cause (s : State) (w : String) (d : Dispatch) (reply : Reply) :
    AttemptRegistry → String → Mark → Prop
  | succeeded (reg : AttemptRegistry) (r : WorkloadExecutionResult)
      (hr : r.savesCheckpoint = true → ∃ u t, reply = .result r u t) :
    Cause s w d reply reg d.attemptId (.succeeded r)
  | failed (reg : AttemptRegistry) (c : Option FailureCategory) (m : Option String)
      (r : Option WorkloadExecutionResult) (hc : c = none → s.isLost d.attemptId = false) :
    Cause s w d reply reg d.attemptId (.failed c m r)
  | superseded (reg : AttemptRegistry) (id : String) (hne : id ≠ d.attemptId)
      (hid : ∃ a ∈ s.attempts.listAttemptsForWorkload w,
        a.attemptId = id ∧ a.status.isActive = true) :
    Cause s w d reply reg id
      (.failed (some .executionFailure) (some "Superseded by primary completion") none)
  | lost (reg : AttemptRegistry) (m : Option String) (ids : List String)
      (hids : ∀ x ∈ ids, x ∈ d.workerIds ∨ reply.Reports x ∨ s.RecordsUnavailable d.attemptId x) :
    Cause s w d reply reg d.attemptId (.lost m ids)

theorem savesCheckpoint_eq_false {r : WorkloadExecutionResult} (h : ¬ r.wasCheckpointed = true) :
    r.savesCheckpoint = false := by
  unfold WorkloadExecutionResult.savesCheckpoint
  simp [h]

theorem ne_of_mem_otherActiveAttempts {id id' : String} (h : id' ∈ s.otherActiveAttempts w id) :
    id' ≠ id := by
  obtain ⟨a, ha, rfl⟩ := List.mem_map.1 h
  have hp := (List.mem_filter.1 ha).2
  simp only [Bool.and_eq_true, decide_eq_true_iff] at hp
  exact hp.1.1

theorem marked_supersede (ids : List String)
    (hids : ∀ id ∈ ids, id ≠ d.attemptId ∧ ∃ a ∈ s.attempts.listAttemptsForWorkload w,
      a.attemptId = id ∧ a.status.isActive = true) :
    Marked (Cause s w d reply) reg (State.supersede reg ids) := by
  induction ids generalizing reg with
  | nil => exact .refl
  | cons id ids ih =>
    obtain ⟨hne, hid⟩ := hids id List.mem_cons_self
    have hfirst : Marked (Cause s w d reply) reg (reg.markFailed id (some .executionFailure)
        (some "Superseded by primary completion")) := Marked.markFailed (.superseded reg id hne hid)
    exact hfirst.trans (ih fun id' hid' => hids id' (List.mem_cons_of_mem id hid'))

theorem marked_successResult {r : WorkloadExecutionResult} (hc : ¬ r.wasCheckpointed = true) :
    Marked (Cause s w d reply) s.attempts (s.successResult w f d r).attempts := by
  have hrecord : ∀ s₀ : State, (s₀.recordArtifacts r).attempts = s₀.attempts := by
    intro s₀
    unfold State.recordArtifacts
    split_ifs <;> rfl
  have ha : (((s.setResult w r).updateState w .completed).recordArtifacts r).attempts =
      s.attempts := hrecord _
  unfold State.successResult
  rw [attempts_returnRun]
  dsimp only
  rw [ha]
  have hothers : Marked (Cause s w d reply) s.attempts (State.supersede s.attempts
      (State.otherActiveAttempts (((s.setResult w r).updateState w .completed).recordArtifacts r) w
        d.attemptId)) := by
    refine marked_supersede _ fun id hid => ⟨ne_of_mem_otherActiveAttempts hid, ?_⟩
    have := mem_otherActiveAttempts hid
    rwa [ha] at this
  refine hothers.trans (Marked.markSucceeded (.succeeded _ r fun hr => ?_))
  rw [savesCheckpoint_eq_false hc] at hr
  cases hr

theorem marked_settleFailure {r : WorkloadExecutionResult} {u : PySet String} {b : Bool}
    (hu : ∀ x ∈ u, x ∈ d.workerIds ∨ reply.Reports x ∨ s.RecordsUnavailable d.attemptId x) :
    Marked (Cause s w d reply) s.attempts (s.settleFailure d r u b).attempts := by
  unfold State.settleFailure
  split_ifs with h
  · refine Marked.markLost (.lost _ _ _ fun x hx => hu x ?_)
    exact (List.mem_insertionSort (· ≤ ·)).1 hx
  · refine Marked.markFailed (.failed _ _ _ _ fun _ => ?_)
    cases hl : s.isLost d.attemptId with
    | false => rfl
    | true => exact absurd (.inr (.inr hl)) h

theorem marked_lostGroupResult {r : WorkloadExecutionResult} {t : PySet String} {now : ℚ}
    (hr : r.wasCheckpointed = false) (ht : ∀ x ∈ t, reply.Reports x) :
    Marked (Cause s w d reply) s.attempts (s.lostGroupResult cfg w f d r t now).attempts := by
  unfold State.lostGroupResult State.settleResult
  dsimp only
  rw [if_neg (by simp [hr]), if_neg (by simp), attempts_failureResult]
  refine marked_settleFailure fun x hx => .inr ?_
  rcases mem_recorded hx with hx | hx
  · exact .inl (ht x hx)
  · exact .inr hx

/-- A result is a checkpoint of a single worker, or the segment leaves the specifications alone and
saves no checkpoint in any attempt, whatever result is reported with the unavailable workers. -/
theorem handleResult_marks (s : State) (w : String) (f : Frame) (d : Dispatch)
    (r : WorkloadExecutionResult) (u t : PySet String) (now : ℚ) :
    (d.executionGroup = none ∧ r.wasCheckpointed = true ∧
      s.handleResult cfg w f d r u t now = s.checkpointResult w f d r) ∨
    (SameSpecs s (s.handleResult cfg w f d r u t now) ∧ ∀ r₀, Marked (Cause s w d (.result r₀ u t))
      s.attempts (s.handleResult cfg w f d r u t now).attempts) := by
  unfold State.handleResult
  dsimp only
  split_ifs with hcancelled hgroup
  · refine .inr ⟨(keepsRecords_cancelledResult s w d _).specs, fun r₀ => ?_⟩
    unfold State.cancelledResult
    rw [attempts_returnRun]
    exact Marked.markFailed (.failed _ _ _ _ nofun)
  · have hr := wasCheckpointed_rejectGroupCheckpoint (r := r) hgroup.1
    split
    · exact .inr ⟨.of_workloads rfl, fun r₀ => .refl⟩
    · refine .inr ⟨?_, fun r₀ => marked_lostGroupResult hr fun x hx => .inr hx⟩
      unfold State.lostGroupResult State.settleResult
      dsimp only
      rw [if_neg (by simp [hr]), if_neg (by simp)]
      exact (failureResult_spec s w f d _ _ true now).1.specs
  · unfold State.settleResult
    split_ifs with hc
    · refine .inl ?_
      -- a checkpoint that is left is that of a single worker
      have hsingle : ¬ (r.wasCheckpointed = true ∧ d.executionGroup.isSome = true) := by
        intro hboth
        rw [wasCheckpointed_rejectGroupCheckpoint hboth.2] at hc
        cases hc
      have heq : State.rejectGroupCheckpoint d r = r := if_neg hsingle
      rw [heq] at hc ⊢
      refine ⟨?_, hc, rfl⟩
      cases hg : d.executionGroup with
      | none => rfl
      | some g => exact absurd ⟨hc, by rw [hg]; rfl⟩ hsingle
    · exact .inr ⟨(keepsRecords_successResult s w f d _).specs, fun r₀ => marked_successResult hc⟩
    · refine .inr ⟨(failureResult_spec s w f d _ u false now).1.specs, fun r₀ => ?_⟩
      rw [attempts_failureResult]
      exact marked_settleFailure fun x hx => .inr (.inl (.inl hx))

theorem marked_handleResult (s : State) (w : String) (f : Frame) (d : Dispatch)
    (r : WorkloadExecutionResult) (u t : PySet String) (now : ℚ) :
    Marked (Cause s w d (.result r u t)) s.attempts
      (s.handleResult cfg w f d r u t now).attempts := by
  rcases @handleResult_marks cfg s w f d r u t now with ⟨-, -, heq⟩ | ⟨-, hmarked⟩
  · rw [heq, (settled_checkpointResult s w f d r).1]
    exact Marked.markSucceeded (.succeeded _ _ fun _ => ⟨u, t, rfl⟩)
  · exact hmarked r

/-- **The marks of the segment after an answer.** -/
theorem marked_handleReply (s : State) (w : String) (f : Frame) (d : Dispatch) (now : ℚ)
    (reply : Reply) :
    Marked (Cause s w d reply) s.attempts (s.handleReply cfg w f d now reply).attempts := by
  cases reply with
  | result r u t => exact marked_handleResult s w f d r u t now
  | recordLost m =>
    show Marked _ _ (s.handleRecordLost cfg w f d m now).attempts
    unfold State.handleRecordLost
    rw [(attempts_retryOrFail _ w _ _ _).1]
    exact Marked.markLost (.lost _ _ _ fun x hx => .inl hx)
  | submitUnavailable m =>
    show Marked _ _ (s.handleSubmitUnavailable cfg w f d m now).attempts
    unfold State.handleSubmitUnavailable
    rw [(attempts_retryOrFail _ w _ _ _).1]
    exact Marked.markFailed (.failed _ _ _ _ nofun)
  | otherException m =>
    have hsettle : Marked (Cause s w d (.otherException m)) s.attempts
        ((s.recordFailures cfg d.workerIds now).settleException d m).attempts := by
      unfold State.settleException
      split_ifs
      · exact Marked.markLost (.lost _ _ _ fun x hx => .inl hx)
      · exact Marked.markFailed (.failed _ _ _ _ nofun)
    show Marked _ _ (s.handleOtherException cfg w f d m now).attempts
    unfold State.handleOtherException
    dsimp only
    split_ifs <;> exact hsettle

theorem resume_marked {now : ℚ} (h : s.resume cfg w now = some s') :
    ∃ f d reply, s.runs.get? w = some (.dispatch f d) ∧ State.dispatchReply cfg f d = some reply ∧
      Answered s s' w f d reply ∧ Marked (Cause s w d reply) s.attempts s'.attempts := by
  obtain ⟨f, d, reply, hpc, hr, rfl, -⟩ := resume_cases h
  exact ⟨f, d, reply, hpc, hr, handleReply_answered s w f d now reply,
    marked_handleReply s w f d now reply⟩

theorem drainResume_marked {now : ℚ} (h : s.drainResume cfg w now = some s') :
    ∃ f d r t, s.runs.get? w = some (.drainWait f d r t) ∧
      (r.wasCheckpointed = false →
        Marked (Cause s w d (.result r ∅ t)) s.attempts s'.attempts) := by
  unfold State.drainResume at h
  split at h
  · rename_i f d r t hpc
    split_ifs at h
    obtain rfl := Option.some.inj h
    refine ⟨f, d, r, t, hpc, fun hr => ?_⟩
    have hmarked : Marked (Cause { s with drainEvents := s.drainEvents.erase d.attemptId } w d
        (.result r ∅ t)) s.attempts
        (State.lostGroupResult cfg { s with drainEvents := s.drainEvents.erase d.attemptId } w f d r
          t now).attempts := marked_lostGroupResult hr fun x hx => .inr hx
    refine hmarked.mono fun reg id m hm => ?_
    cases hm with
    | succeeded r' hr' => exact .succeeded reg r' hr'
    | failed c m r' hc => exact .failed reg c m r' hc
    | superseded _ hne hid => exact .superseded reg _ hne hid
    | lost m ids hids => exact .lost reg m ids hids
  · cases h

/-! ## Steps outside the runs -/

/-- Every attempt is filed under its own identifier. -/
def FiledIds (reg : AttemptRegistry) : Prop :=
  ∀ id r, reg.getAttempt id = some r → r.attemptId = id

/-- The mark is that of a lost worker, which the attempt names. -/
def Evicts (reg : AttemptRegistry) (id : String) (m : Mark) : Prop :=
  ∃ x why, m = .lost (some why) [x] ∧
    (FiledIds reg → ∀ r, reg.getAttempt id = some r → r.names x = true)

theorem marked_loseAttempts (ids : List String) (why x : String)
    (h : FiledIds reg → ∀ id ∈ ids, ∀ r, reg.getAttempt id = some r → r.names x = true) :
    Marked Evicts reg (State.loseAttempts reg ids why x) := by
  induction ids generalizing reg with
  | nil => exact .refl
  | cons id ids ih =>
    have hfirst : Marked Evicts reg (reg.markLost id (some why) [x]) :=
      Marked.markLost ⟨x, why, rfl, fun hfiled => h hfiled id List.mem_cons_self⟩
    refine hfirst.trans (ih fun hfiled id' hid' r' hr' => ?_)
    -- the other attempts are filed and name the workers that they did
    have hbefore : FiledIds reg := by
      intro k r hr
      obtain ⟨r₂, hr₂, hfix⟩ := (hfirst.record k).1 r hr
      rw [← hfix.attemptId]
      exact hfiled k r₂ hr₂
    obtain ⟨r, hr, hfix⟩ := (hfirst.record id').2 r' hr'
    rw [hfix.names x]
    exact h hbefore id' (List.mem_cons_of_mem id hid') r hr

theorem names_of_mem_running {l : List AttemptRecord} (hfiled : FiledIds reg)
    (hl : ∀ a ∈ l, a ∈ reg.listRunningAttemptsForWorker x) :
    ∀ id ∈ l.map (·.attemptId), ∀ r, reg.getAttempt id = some r → r.names x = true := by
  intro id hid r hr
  obtain ⟨a, ha, rfl⟩ := List.mem_map.1 hid
  obtain ⟨hmem, hocc⟩ := List.mem_filter.1 (hl a ha)
  obtain ⟨k, hk⟩ := Dict.mem_values.1 hmem
  rw [hfiled k a hk] at hr
  obtain rfl := Option.some.inj (hr.symm.trans hk)
  unfold AttemptRecord.occupies at hocc
  exact (Bool.and_eq_true _ _ ▸ hocc).2

theorem marked_handleWorkerLost (s : State) (x : String) :
    Marked Evicts s.attempts (s.handleWorkerLost x).attempts :=
  marked_loseAttempts _ _ x fun hfiled => names_of_mem_running hfiled fun _ ha => ha

theorem marked_foldl_handleWorkerLost (s : State) (l : List String) :
    Marked Evicts s.attempts (l.foldl State.handleWorkerLost s).attempts := by
  induction l generalizing s with
  | nil => exact .refl
  | cons x l ih => exact (marked_handleWorkerLost s x).trans (ih (s.handleWorkerLost x))

/-- **The marks of a step outside the runs.** -/
theorem step_evicts (h : step cfg s a = some s') (hseg : a.segmentOf = none)
    (hrestart : a.isRestart = false) : Marked Evicts s.attempts s'.attempts := by
  rcases outside_attempts h hseg hrestart with he | ⟨x, rfl⟩ | ⟨now, rfl⟩ | ⟨x, rfl⟩
  · rw [he]
    exact .refl
  · obtain rfl := Option.some.inj h
    exact marked_handleWorkerLost s x
  · obtain rfl := Option.some.inj h
    exact marked_foldl_handleWorkerLost
      { s with registry := (s.registry.evictExpiredWorkers cfg.registry none now).1 } _
  · obtain rfl := Option.some.inj h
    unfold State.drainStart
    dsimp only
    split_ifs with hnil
    · exact .refl
    · exact marked_loseAttempts _ _ x fun hfiled =>
        names_of_mem_running hfiled fun _ ha => List.mem_of_mem_filter ha

end Aidars.Orchestrator
