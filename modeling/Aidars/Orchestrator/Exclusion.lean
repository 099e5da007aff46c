import Aidars.Orchestrator.Confinement
import Aidars.Orchestrator.Finality

/-!
# Which workers a workload excludes

A worker that fails an attempt is excluded from the further attempts of the workload, in the local
variables of the run (`step_exclusion`) and, when the workload is run anew, by its attempts. A
failure that a member of an execution group reports becomes the failure of the whole attempt, and
it is the leader of the group that is excluded then. The steps here are those of runs in which it
is the leader that reports such a failure (`BlamesLeader`); `BlamedBy` says who is to blame in any
run.
-/

namespace Aidars.Orchestrator

variable {cfg : Config} {s s' : State} {w v x m : String} {a : Action} {f f' : Frame}
  {d : Dispatch} {reg reg' : AttemptRegistry} {r r' : AttemptRecord} {category : FailureCategory}

/-! ## What the members of a group report -/

/-- The failure that the answer of a member reports. -/
def CallReply.failure? : CallReply → Option FailureCategory
  | .result r =>
    if !r.success || r.wasCheckpointed then some (r.failureCategory.getD .applicationError)
    else none
  | _ => some .workerUnavailable

/-- The answer shows that the member is unavailable. -/
def CallReply.unavailable : CallReply → Bool
  | .result r => !r.success && r.failureCategory = some .workerUnavailable
  | _ => true

/-- The failure that a call reports. -/
def Call.failure? (c : Call) : Option FailureCategory := c.reply?.bind CallReply.failure?

/-- The workers to blame for an attempt that has failed with the category: its single worker, or the
members of its group that reported the failure. -/
def Dispatch.culprits (d : Dispatch) (category : FailureCategory) : List String :=
  match d.executionGroup with
  | none => [d.decision.selectedWorkerId]
  | some _ => (d.calls.filter (·.failure? = some category)).map (·.workerId)

/-- The failure of a group is that of its leader: unless a member is unavailable, the first failure
that is reported is reported by the leader alone if it excludes a worker. -/
def Dispatch.LeaderFails (d : Dispatch) : Prop :=
  d.executionGroup.isSome → (∀ c ∈ d.calls, ∀ reply ∈ c.reply?, reply.unavailable = false) →
    ∀ category ∈ d.calls.findSome? Call.failure?, exhausts (some category) = true →
      ∀ c ∈ d.calls, c.failure? = some category → c.workerId = d.decision.selectedWorkerId

instance (d : Dispatch) : Decidable d.LeaderFails := by
  unfold Dispatch.LeaderFails
  infer_instance

/-- The answers of the calls, in the order of the calls. -/
theorem mapM_reply {l : List Call} {outcomes : List (String × CallReply)}
    (h : (l.mapM fun (c : Call) => c.reply?.map (Prod.mk c.workerId)) = some outcomes) :
    l.map Call.reply? = outcomes.map fun o => some o.2 := by
  induction l generalizing outcomes with
  | nil =>
    obtain rfl := Option.some.inj h
    rfl
  | cons c l ih =>
    rw [List.mapM_cons] at h
    obtain ⟨o, ho, h⟩ := Option.bind_eq_some_iff.1 h
    obtain ⟨rest, hrest, h⟩ := Option.bind_eq_some_iff.1 h
    obtain rfl := Option.some.inj h
    obtain ⟨reply, hreply, rfl⟩ := Option.map_eq_some_iff.1 ho
    rw [List.map_cons, List.map_cons, ih hrest, hreply]

theorem failure_reported {outcomes : List (String × CallReply)}
    (h : ∀ o ∈ outcomes, o.2.unavailable = false) :
    (((outcomes.filterMap fun o => match o.2 with
      | .result r => some (o.1, r)
      | _ => none).map Prod.snd).find? fun r => !r.success || r.wasCheckpointed).map
        (fun r => r.failureCategory.getD .applicationError) =
      outcomes.findSome? fun o => o.2.failure? := by
  induction outcomes with
  | nil => rfl
  | cons o outcomes ih =>
    have hrest := ih fun o ho => h o (List.mem_cons_of_mem _ ho)
    have hfirst := h o List.mem_cons_self
    obtain ⟨wid, reply⟩ := o
    cases reply with
    | result r =>
      rw [List.filterMap_cons_some (by rfl), List.map_cons, List.findSome?_cons, List.find?_cons]
      cases hr : (!r.success || r.wasCheckpointed) with
      | true => simp [CallReply.failure?, hr]
      | false =>
        rw [hrest]
        simp [CallReply.failure?, hr]
    | submitUnavailable m => cases hfirst
    | recordLost m => cases hfirst
    | otherException m => cases hfirst

/-- When a group reports no member unavailable, none is, and its failure is the first one that a
member reports. -/
theorem aggregate_available {spec : WorkloadSpec} {g : ExecutionGroup}
    {outcomes : List (String × CallReply)} (h : (State.aggregate spec g outcomes).2.1 = ∅) :
    (∀ o ∈ outcomes, o.2.unavailable = false) ∧
      (State.aggregate spec g outcomes).1.failureCategory =
        outcomes.findSome? fun o => o.2.failure? := by
  have hnone := PySet.eq_empty_iff.1 h
  have havailable : ∀ o ∈ outcomes, o.2.unavailable = false := by
    intro o ho
    by_contra hu
    refine hnone o.1 (PySet.mem_union.2 ?_)
    obtain ⟨wid, reply⟩ := o
    cases reply with
    | result r =>
      refine .inr (PySet.mem_ofList.2 (List.mem_filterMap.2 ⟨(wid, r), ?_, ?_⟩))
      · exact List.mem_filterMap.2 ⟨_, ho, rfl⟩
      · exact if_pos (by simpa [CallReply.unavailable] using hu)
    | submitUnavailable m =>
      exact .inl (PySet.mem_ofList.2 (List.mem_filterMap.2 ⟨_, ho, rfl⟩))
    | recordLost m => exact .inl (PySet.mem_ofList.2 (List.mem_filterMap.2 ⟨_, ho, rfl⟩))
    | otherException m => exact .inl (PySet.mem_ofList.2 (List.mem_filterMap.2 ⟨_, ho, rfl⟩))
  refine ⟨havailable, ?_⟩
  have hcategory : (State.aggregate spec g outcomes).1.failureCategory =
      if (State.aggregate spec g outcomes).2.1 ≠ ∅ then some .workerUnavailable
      else (((outcomes.filterMap fun o => match o.2 with
        | .result r => some (o.1, r)
        | _ => none).map Prod.snd).find? fun r => !r.success || r.wasCheckpointed).map
          fun r => r.failureCategory.getD .applicationError := rfl
  rw [hcategory, if_neg (by simp [h]), failure_reported havailable]

theorem findSome?_failure {l : List Call} {outcomes : List (String × CallReply)}
    (h : l.map Call.reply? = outcomes.map fun o => some o.2) :
    l.findSome? Call.failure? = outcomes.findSome? fun o => o.2.failure? := by
  have hl : l.findSome? Call.failure? =
      (l.map Call.reply?).findSome? fun reply => reply.bind CallReply.failure? := by
    rw [List.findSome?_map]
    rfl
  rw [hl, h, List.findSome?_map]
  rfl

/-- **The answer of a group.** It is an exception, or a result that is no checkpoint; and when it
reports no member unavailable, a failure that excludes a worker is the first that is reported. -/
theorem dispatchReply_group {g : ExecutionGroup} {reply : Reply} (hg : d.executionGroup = some g)
    (h : State.dispatchReply cfg f d = some reply) : (∃ m, reply = .otherException m) ∨
      ∃ r u t, reply = .result r u t ∧ r.wasCheckpointed = false ∧
        (u = ∅ → exhausts r.failureCategory = true →
          (∀ c ∈ d.calls, ∀ reply ∈ c.reply?, reply.unavailable = false) ∧
            d.calls.findSome? Call.failure? = r.failureCategory) := by
  unfold State.dispatchReply at h
  split at h
  · rename_i m _
    exact .inl ⟨m, (Option.some.inj h).symm⟩
  · rw [hg] at h
    obtain ⟨outcomes, hout, rfl⟩ := Option.map_eq_some_iff.1 h
    have hreplies := mapM_reply hout
    have hfirst : (State.aggregate f.spec g outcomes).2.1 = ∅ →
        (∀ c ∈ d.calls, ∀ reply ∈ c.reply?, reply.unavailable = false) ∧
          d.calls.findSome? Call.failure? =
            (State.aggregate f.spec g outcomes).1.failureCategory := by
      intro hu
      obtain ⟨havailable, hcategory⟩ := aggregate_available hu
      refine ⟨fun c hc reply hreply => ?_, (findSome?_failure hreplies).trans hcategory.symm⟩
      have hmem : some reply ∈ outcomes.map fun o => some o.2 := by
        rw [← hreplies]
        exact List.mem_map.2 ⟨c, hc, hreply⟩
      obtain ⟨o, ho, heq⟩ := List.mem_map.1 hmem
      rw [← Option.some.inj heq]
      exact havailable o ho
    unfold State.groupReply
    dsimp only
    split_ifs
    · split
      · rename_i m _
        exact .inl ⟨m, rfl⟩
      · exact .inr ⟨_, _, _, rfl, rfl, fun hu _ => hfirst hu⟩
      · exact .inr ⟨_, _, _, rfl, rfl, fun _ hex => by cases hex⟩
    · exact .inr ⟨_, _, _, rfl, rfl, fun hu _ => hfirst hu⟩

theorem Dispatch.LeaderFails.culprits {g : ExecutionGroup} (h : d.LeaderFails)
    (hg : d.executionGroup = some g)
    (havailable : ∀ c ∈ d.calls, ∀ reply ∈ c.reply?, reply.unavailable = false)
    (hfirst : d.calls.findSome? Call.failure? = some category)
    (hex : exhausts (some category) = true) :
    ∀ m, m ∈ d.culprits category ↔ m = d.decision.selectedWorkerId := by
  have hleader := h (by rw [hg]; rfl) havailable category hfirst hex
  have hmem : ∀ m, m ∈ d.culprits category ↔
      ∃ c ∈ d.calls, c.failure? = some category ∧ c.workerId = m := by
    intro m
    rw [Dispatch.culprits, hg]
    simp [and_assoc]
  intro m
  rw [hmem]
  constructor
  · rintro ⟨c, hc, hfailure, rfl⟩
    exact hleader c hc hfailure
  · rintro rfl
    obtain ⟨c, hc, hfailure⟩ := List.exists_of_findSome?_eq_some hfirst
    exact ⟨c, hc, hfailure, hleader c hc hfailure⟩

theorem culprits_single (h : d.executionGroup = none) (category : FailureCategory) (m : String) :
    m ∈ d.culprits category ↔ m = d.decision.selectedWorkerId := by
  rw [Dispatch.culprits, h, List.mem_singleton]

/-! ## What the segment after an answer excludes -/

/-- The run has returned, or waits for the placement lock and excludes the workers of `ids` besides
those that it excluded before. -/
def Excludes (w : String) (s' : State) (f : Frame) (ids : List String) : Prop :=
  s'.frameOf w = none ∨ ∃ f', s'.runs.get? w = some (.lockWait f') ∧
    ∀ x, x ∈ f'.exhaustedWorkerIds ↔ x ∈ f.exhaustedWorkerIds ∨ x ∈ ids

namespace Excludes

theorem of_returned {ids : List String} (h : Returned w s') : Excludes w s' f ids :=
  .inl (frameOf_of_returned h)

theorem nextAttempt (s : State) (w : String) (f : Frame) (ids : List String) :
    Excludes w (s.nextAttempt w (f.exhaust ids)) f ids :=
  .inr ⟨_, runs_nextAttempt s w _, fun _ => PySet.mem_foldl_insert⟩

theorem retryOrFail (s : State) (w : String) (f : Frame) (ids : List String)
    (c : Option FailureCategory) (message : String) :
    Excludes w (s.retryOrFail cfg w (f.exhaust ids) c message) f ids := by
  unfold State.retryOrFail
  split_ifs
  · exact nextAttempt s w f ids
  · exact of_returned (returned_failRun s w _)

theorem failureResult (s : State) (w : String) (f : Frame) (d : Dispatch)
    (r : WorkloadExecutionResult) (u : PySet String) (b : Bool) (now : ℚ) :
    Excludes w (s.failureResult cfg w f d r u b now) f (blamedIds d r u) := by
  unfold State.failureResult blamedIds
  dsimp only
  split_ifs
  · exact nextAttempt _ w f _
  · exact of_returned (returned_failRun _ w _)
  · exact nextAttempt _ w f _
  · exact of_returned (returned_failRun _ w _)
  · exact nextAttempt _ w f []
  · exact of_returned (returned_failRun _ w _)

theorem frame {ids : List String} (h : Excludes w s' f ids) (hf' : s'.frameOf w = some f')
    (x : String) : x ∈ f'.exhaustedWorkerIds ↔ x ∈ f.exhaustedWorkerIds ∨ x ∈ ids := by
  rcases h with hnone | ⟨f₁, hf₁, hids⟩
  · rw [hnone] at hf'
    cases hf'
  · rw [State.frameOf, hf₁] at hf'
    obtain rfl := Option.some.inj hf'
    exact hids x

theorem not_atAttempt {ids : List String} (h : Excludes w s' f ids) : ¬ AtAttempt s' w f' d := by
  rcases h with hnone | ⟨f₁, hf₁, -⟩
  · rintro (hat | ⟨r, t, hat⟩) <;> rw [State.frameOf, hat] at hnone <;> cases hnone
  · exact not_atAttempt_of_lockWait hf₁

end Excludes

/-- How the segment after an answer settles its attempt, and which workers it excludes: the run
waits for a drain, or the attempt is lost, or it fails and its worker alone is to blame and is
excluded, or no worker is excluded. -/
inductive Concluded (s s' : State) (w : String) (f : Frame) (d : Dispatch) : Prop
  | waits (r : WorkloadExecutionResult) (t : PySet String)
      (heq : s' = s.setPc w (.drainWait f d r t)) (hlost : s.isLost d.attemptId = true)
  | lost (ids : List String) (m : Option String) (u : List String) (hids : Excludes w s' f ids)
      (hattempts : s'.attempts = s.attempts.markLost d.attemptId m u)
  | blamed (category : FailureCategory) (m : Option String) (r : Option WorkloadExecutionResult)
      (hids : Excludes w s' f [d.decision.selectedWorkerId])
      (hattempts : s'.attempts = s.attempts.markFailed d.attemptId (some category) m r)
      (hex : exhausts (some category) = true)
      (hculprits : ∀ m, m ∈ d.culprits category ↔ m = d.decision.selectedWorkerId)
  | failed (c : Option FailureCategory) (m : Option String) (r : Option WorkloadExecutionResult)
      (hids : Excludes w s' f [])
      (hattempts : s'.attempts = s.attempts.markFailed d.attemptId c m r)
      (hex : exhausts c = false)
  | succeeded (hids : Excludes w s' f [])
      (hattempts : Settled w d.attemptId s.attempts .succeeded s'.attempts)

/-- The failure of the answer is that of the leader: unless the workload is cancelled or the attempt
is lost. -/
def LeaderAnswers (s : State) (w : String) (d : Dispatch) : Prop :=
  s.isCancelled w = false → s.isLost d.attemptId = false → d.raised = none → d.LeaderFails

instance (s : State) (w : String) (d : Dispatch) : Decidable (LeaderAnswers s w d) := by
  unfold LeaderAnswers
  infer_instance

/-- The result of a group whose attempt was lost. -/
theorem excludes_lostGroupResult {r : WorkloadExecutionResult} {t : PySet String} {now : ℚ}
    (hr : r.wasCheckpointed = false) : ∃ ids m u,
      Excludes w (s.lostGroupResult cfg w f d r t now) f ids ∧
        (s.lostGroupResult cfg w f d r t now).attempts = s.attempts.markLost d.attemptId m u := by
  have hlost : ∀ (r : WorkloadExecutionResult) (u : PySet String), ∃ ids m u',
      Excludes w (s.failureResult cfg w f d r u true now) f ids ∧
        (s.failureResult cfg w f d r u true now).attempts =
          s.attempts.markLost d.attemptId m u' := by
    intro r u
    have ha := @attempts_failureResult cfg s w f d r u true now
    unfold State.settleFailure at ha
    rw [if_pos (.inr (.inl rfl))] at ha
    exact ⟨_, _, _, .failureResult s w f d r u true now, ha⟩
  unfold State.lostGroupResult State.settleResult
  dsimp only
  rw [if_neg (by simp [hr]), if_neg (by simp)]
  exact hlost _ _

theorem concluded_failureResult {r : WorkloadExecutionResult} {u : PySet String} {now : ℚ}
    (hculprits : s.isLost d.attemptId = false → u = ∅ → ∀ category,
      r.failureCategory = some category → exhausts (some category) = true →
        ∀ m, m ∈ d.culprits category ↔ m = d.decision.selectedWorkerId) :
    Concluded s (s.failureResult cfg w f d r u false now) w f d := by
  have hids : Excludes w (s.failureResult cfg w f d r u false now) f (blamedIds d r u) :=
    .failureResult s w f d r u false now
  have ha := @attempts_failureResult cfg s w f d r u false now
  unfold State.settleFailure at ha
  by_cases hlost : u ≠ ∅ ∨ (false = true ∨ s.isLost d.attemptId = true)
  · rw [if_pos hlost] at ha
    exact .lost _ _ _ hids ha
  · rw [if_neg hlost] at ha
    have hu : u = ∅ := by
      by_contra hu
      exact hlost (.inl hu)
    have hnot : s.isLost d.attemptId = false := by
      cases hl : s.isLost d.attemptId with
      | false => rfl
      | true => exact absurd (.inr (.inr hl)) hlost
    rw [blamedIds, if_neg (not_not.2 hu)] at hids
    cases hex : exhausts r.failureCategory with
    | false =>
      rw [if_neg (by simp [hex])] at hids
      exact .failed _ _ _ hids ha hex
    | true =>
      rw [if_pos hex] at hids
      cases hc : r.failureCategory with
      | none =>
        rw [hc] at hex
        cases hex
      | some category =>
        rw [hc] at hex ha
        exact .blamed category _ _ hids ha hex (hculprits hnot hu category hc hex)

theorem concluded_handleResult {r : WorkloadExecutionResult} {u t : PySet String} {now : ℚ}
    (hplain : d.executionGroup.isSome = true → r.wasCheckpointed = false)
    (hculprits : s.isCancelled w = false → s.isLost d.attemptId = false → u = ∅ → ∀ category,
      r.failureCategory = some category → exhausts (some category) = true →
        ∀ m, m ∈ d.culprits category ↔ m = d.decision.selectedWorkerId) :
    Concluded s (s.handleResult cfg w f d r u t now) w f d := by
  have heq : State.rejectGroupCheckpoint d r = r := by
    unfold State.rejectGroupCheckpoint
    refine if_neg fun h => ?_
    rw [hplain h.2] at h
    cases h.1
  unfold State.handleResult
  dsimp only
  rw [heq]
  split_ifs with hcancelled hgroup
  · obtain ⟨-, -, hret⟩ := attempts_cancelledResult s w d r
    refine .failed (some .executionFailure) (some "Execution cancelled by request") (some r)
      (.of_returned hret) ?_ rfl
    unfold State.cancelledResult
    rw [attempts_returnRun]
    rfl
  · split
    · exact .waits _ t rfl hgroup.2
    · obtain ⟨ids, m, u', hids, ha⟩ := @excludes_lostGroupResult cfg s w f d r t now
        (hplain hgroup.1)
      exact .lost ids m u' hids ha
  · unfold State.settleResult
    split_ifs
    · obtain ⟨ha, -, hret⟩ := settled_checkpointResult s w f d r
      refine .succeeded (.of_returned hret) ?_
      rw [ha]
      exact .checkpointed r
    · obtain ⟨ha, -, hret⟩ := settled_successResult s w f d r
      exact .succeeded (.of_returned hret) ha
    · refine concluded_failureResult fun hlost => ?_
      exact hculprits (by simpa using hcancelled) hlost

/-- **Which workers the segment after an answer excludes.** -/
theorem resume_concluded {now : ℚ} (hpc : s.runs.get? w = some (.dispatch f d))
    (hleader : LeaderAnswers s w d) (h : s.resume cfg w now = some s') :
    Concluded s s' w f d := by
  obtain ⟨f₁, d₁, reply, hpc₁, hreply, rfl, -⟩ := resume_cases h
  rw [hpc] at hpc₁
  cases hpc₁
  have hsingle : d.executionGroup = none → d.workerIds = [d.decision.selectedWorkerId] := by
    intro hg
    rw [Dispatch.workerIds, hg]
    rfl
  have hblame : d.executionGroup = none → ∀ m, m ∈ d.culprits .workerUnavailable ↔
      m = d.decision.selectedWorkerId := fun hg => culprits_single hg _
  cases reply with
  | result r u t =>
    cases hg : d.executionGroup with
    | none =>
      refine concluded_handleResult (fun h => ?_) fun _ _ _ category _ _ => ?_
      · rw [hg] at h
        cases h
      · exact culprits_single hg category
    | some g =>
      have hraised : d.raised = none := by
        cases hraised : d.raised with
        | none => rfl
        | some m =>
          rw [State.dispatchReply, hraised] at hreply
          cases hreply
      rcases dispatchReply_group hg hreply with ⟨m, hm⟩ | ⟨r₁, u₁, t₁, heq, hplain, hfirst⟩
      · cases hm
      · cases heq
        refine concluded_handleResult (fun _ => hplain) ?_
        intro hcancelled hlost hu category hc hex
        rw [hc] at hfirst
        obtain ⟨havailable, hfirst⟩ := hfirst hu hex
        exact (hleader hcancelled hlost hraised).culprits hg havailable hfirst hex
  | recordLost m =>
    refine .lost d.workerIds (some m) d.workerIds (.retryOrFail _ w f d.workerIds _ m) ?_
    exact (attempts_retryOrFail _ w _ _ m).1
  | submitUnavailable m =>
    have hg : d.executionGroup = none := by
      cases hg : d.executionGroup with
      | none => rfl
      | some g =>
        rcases dispatchReply_group hg hreply with ⟨m', hm⟩ | ⟨r₁, u₁, t₁, heq, -⟩
        · cases hm
        · cases heq
    refine .blamed .workerUnavailable (some m) none ?_ (attempts_retryOrFail _ w _ _ m).1 rfl
      (hblame hg)
    rw [← hsingle hg]
    exact .retryOrFail _ w f d.workerIds _ m
  | otherException m =>
    have hids : Excludes w (s.handleOtherException cfg w f d m now) f d.workerIds := by
      unfold State.handleOtherException
      dsimp only
      split_ifs
      · exact .nextAttempt _ w f d.workerIds
      · exact .nextAttempt _ w f d.workerIds
    have ha : (s.handleOtherException cfg w f d m now).attempts =
        ((s.recordFailures cfg d.workerIds now).settleException d m).attempts := by
      unfold State.handleOtherException
      dsimp only
      split_ifs <;> rfl
    unfold State.settleException at ha
    cases hg : d.executionGroup with
    | some g =>
      rw [if_pos (by rw [hg]; rfl)] at ha
      exact .lost d.workerIds (some m) d.workerIds hids ha
    | none =>
      rw [if_neg (by rw [hg]; decide)] at ha
      rw [hsingle hg] at hids
      exact .blamed .workerUnavailable (some m) none hids ha rfl (hblame hg)

theorem drainResume_excludes {now : ℚ} (hs : DrainsPlain s)
    (h : s.drainResume cfg w now = some s') : ∃ f d ids m u, AtAttempt s w f d ∧
      Excludes w s' f ids ∧ s'.attempts = s.attempts.markLost d.attemptId m u := by
  unfold State.drainResume at h
  split at h
  · rename_i f d r t hpc
    split_ifs at h
    obtain rfl := Option.some.inj h
    obtain ⟨ids, m, u, hids, ha⟩ := @excludes_lostGroupResult cfg
      { s with drainEvents := s.drainEvents.erase d.attemptId } w f d r t now (hs w f d r t hpc)
    exact ⟨f, d, ids, m, u, .inr ⟨r, t, hpc⟩, hids, ha⟩
  · cases h

/-! ## Who is to blame -/

/-- The step records an attempt of the workload as failed, and the worker is to blame for it. -/
def BlamedBy (s : State) (a : Action) (s' : State) (w m : String) : Prop :=
  (∃ now, a = .resume w now) ∧ ∃ d ∈ s.dispatchOf w, ∃ r ∈ s'.attempts.getAttempt d.attemptId,
    r.status = .failed ∧ ∃ category ∈ r.failureCategory,
      exhausts (some category) = true ∧ m ∈ d.culprits category

/-- An attempt of the workload has failed and the worker was to blame for it. -/
def WasToBlame (cfg : Config) (as : List Action) (w m : String) : Prop :=
  ∃ as₁ a s₁ s₂, as₁ ++ [a] <+: as ∧ runSteps cfg {} as₁ = some s₁ ∧ step cfg s₁ a = some s₂ ∧
    BlamedBy s₁ a s₂ w m

theorem WasToBlame.append {as : List Action} (h : WasToBlame cfg as w m) (bs : List Action) :
    WasToBlame cfg (as ++ bs) w m := by
  obtain ⟨as₁, a, s₁, s₂, hpre, hrun, hstep, hblamed⟩ := h
  exact ⟨as₁, a, s₁, s₂, hpre.trans (List.prefix_append as bs), hrun, hstep, hblamed⟩

/-- The worker was to blame before the last step, or is for it. -/
theorem wasToBlame_step {as : List Action} (hrun : runSteps cfg {} as = some s)
    (hstep : step cfg s a = some s') :
    WasToBlame cfg (as ++ [a]) w m ↔ WasToBlame cfg as w m ∨ BlamedBy s a s' w m := by
  constructor
  · rintro ⟨as₁, a₁, s₁, s₂, hpre, hrun₁, hstep₁, hblamed⟩
    rcases List.prefix_concat_iff.1 hpre with heq | hpre
    · obtain ⟨rfl, hlast⟩ := List.append_inj' heq rfl
      obtain rfl := (List.cons.inj hlast).1
      obtain rfl := Option.some.inj (hrun.symm.trans hrun₁)
      obtain rfl := Option.some.inj (hstep.symm.trans hstep₁)
      exact .inr hblamed
    · exact .inl ⟨as₁, a₁, s₁, s₂, hpre, hrun₁, hstep₁, hblamed⟩
  · rintro (h | h)
    · exact h.append [a]
    · exact ⟨as, a, s, s', List.prefix_refl _, hrun, hstep, h⟩

/-- An attempt of the workload is lost. -/
def HasLost (s : State) (w : String) : Prop :=
  ∃ id ∈ s.attempts.idsOf w, ∃ r ∈ s.attempts.getAttempt id, r.status = .lost

/-- No attempt of the workload was lost in any state of the run. -/
def NeverLost (cfg : Config) (as : List Action) (w : String) : Prop :=
  ∀ as₁ s₁, as₁ <+: as → runSteps cfg {} as₁ = some s₁ → ¬ HasLost s₁ w

/-- The failures of the workload's groups are those of their leaders, and a restart reads all
attempts of the workload back. -/
def BlamesLeader (w : String) (s : State) : Action → Prop
  | .resume v _ => v = w → ∀ d ∈ s.dispatchOf w, LeaderAnswers s w d
  | .restart _ => ∀ id ∈ s.attempts.idsOf w,
      (s.attempts.getAttempt id).any fun r => (StateStore.reloadAttempt r).isSome
  | _ => True

instance (w : String) (s : State) (a : Action) : Decidable (BlamesLeader w s a) := by
  apply a.casesOn (motive := fun a => Decidable (BlamesLeader w s a)) <;> intros <;>
    unfold BlamesLeader <;> infer_instance

/-- The workers that the workload excludes: in the local variables of its run, and by its attempts
for a run to come. -/
def State.HasExcluded (s : State) (w x : String) : Prop :=
  (∃ f ∈ s.frameOf w, x ∈ f.exhaustedWorkerIds) ∨
    x ∈ exhaustedWorkerIds (s.attempts.listAttemptsForWorkload w)

/-- The exclusion of workers blames the right ones: a new attempt of the workload is for none that
was to blame for an earlier one; and as long as no attempt is lost, only these are excluded. -/
structure ExclusionBlames (cfg : Config) (as : List Action) (s : State) (w : String) : Prop where
  selected : ∀ a s' id, step cfg s a = some s' →
    s'.attempts.idsOf w = s.attempts.idsOf w ++ [id] → ∃ r, s'.attempts.getAttempt id = some r ∧
      ∀ m, WasToBlame cfg as w m → r.names m = false
  excluded : NeverLost cfg as w → ∀ x, s.HasExcluded w x → WasToBlame cfg as w x

/-! ## The frame of a run -/

/-- What a step does to the workers that a run excludes. -/
inductive ExclusionStep (s : State) (a : Action) (s' : State) (w : String) (f' : Frame) : Prop
  | carried (f : Frame) (hf : s.frameOf w = some f)
      (hids : ∀ x, x ∈ f'.exhaustedWorkerIds ↔ x ∈ f.exhaustedWorkerIds)
      (hnot : ∀ m, ¬ BlamedBy s a s' w m)
  | entered (ha : a = .startRun w) (hids : f'.exhaustedWorkerIds =
      exhaustedWorkerIds (s.attempts.listAttemptsForWorkload w))
  | vanished (f : Frame) (hf : s.frameOf w = some f)
      (hids : ∀ x ∈ f.exhaustedWorkerIds, x ∈ f'.exhaustedWorkerIds) (hlost : HasLost s' w)
      (hnot : ∀ m, ¬ BlamedBy s a s' w m)
  | blamed (f : Frame) (d : Dispatch) (hf : s.frameOf w = some f)
      (hids : ∀ x, x ∈ f'.exhaustedWorkerIds ↔
        x ∈ f.exhaustedWorkerIds ∨ x = d.decision.selectedWorkerId)
      (hblamed : ∀ m, BlamedBy s a s' w m ↔ m = d.decision.selectedWorkerId)

theorem not_blamedBy (h : ∀ now, a ≠ .resume w now) (m : String) : ¬ BlamedBy s a s' w m := by
  rintro ⟨⟨now, ha⟩, -⟩
  exact h now ha

/-- An attempt of the workload that is lost in the new state. -/
theorem hasLost_of_markLost {u : List String} {message : Option String}
    (hok : DispatchOk s.attempts w d)
    (ha : s'.attempts = s.attempts.markLost d.attemptId message u) : HasLost s' w := by
  obtain ⟨r, hr, -⟩ := hok.recorded
  have hget : s'.attempts.getAttempt d.attemptId = some ((Mark.lost message u).write r) := by
    rw [ha, AttemptRegistry.markLost, AttemptRegistry.getAttempt_update, if_pos rfl, hr]
    rfl
  refine ⟨d.attemptId, ?_, _, hget, rfl⟩
  rw [ha]
  exact hok.listed

/-- Whom the segment after an answer blames. -/
theorem blamedBy_resume {now : ℚ} (hpc : s.runs.get? w = some (.dispatch f d)) (m : String) :
    BlamedBy s (.resume w now) s' w m ↔ ∃ r ∈ s'.attempts.getAttempt d.attemptId,
      r.status = .failed ∧ ∃ category ∈ r.failureCategory,
        exhausts (some category) = true ∧ m ∈ d.culprits category := by
  have hdispatch : s.dispatchOf w = some d := by rw [State.dispatchOf, hpc]
  rw [BlamedBy, hdispatch]
  constructor
  · rintro ⟨-, d', hd, h⟩
    obtain rfl := Option.some.inj hd
    exact h
  · exact fun h => ⟨⟨now, rfl⟩, d, rfl, h⟩

theorem getAttempt_markFailed {c : Option FailureCategory} {message : Option String}
    {result : Option WorkloadExecutionResult} {id : String}
    (hr : (reg.markFailed id c message result).getAttempt id = some r) :
    r.status = .failed ∧ r.failureCategory = c := by
  rw [AttemptRegistry.markFailed, AttemptRegistry.getAttempt_update, if_pos rfl] at hr
  obtain ⟨r₀, -, rfl⟩ := Option.map_eq_some_iff.1 hr
  exact ⟨rfl, rfl⟩

theorem status_succeeded {id : String} (h : Settled w id reg .succeeded reg')
    (hr : reg'.getAttempt id = some r) : r.status = .succeeded := by
  cases h with
  | checkpointed result =>
    rw [AttemptRegistry.markSucceeded, AttemptRegistry.getAttempt_update, if_pos rfl] at hr
    obtain ⟨r₀, -, rfl⟩ := Option.map_eq_some_iff.1 hr
    rfl
  | succeeded result ids hids =>
    rw [AttemptRegistry.markSucceeded, AttemptRegistry.getAttempt_update, if_pos rfl] at hr
    obtain ⟨r₀, -, rfl⟩ := Option.map_eq_some_iff.1 hr
    rfl

/-- An attempt that has failed with a category that excludes has its worker excluded, who alone is
to blame. -/
theorem Concluded.of_failed (hcon : Concluded s s' w f d)
    (hr : s'.attempts.getAttempt d.attemptId = some r) (hst : r.status = .failed)
    (hex : exhausts r.failureCategory = true) : ∃ category message result,
      r.failureCategory = some category ∧ Excludes w s' f [d.decision.selectedWorkerId] ∧
        s'.attempts = s.attempts.markFailed d.attemptId (some category) message result ∧
        ∀ m, m ∈ d.culprits category ↔ m = d.decision.selectedWorkerId := by
  cases hcon with
  | waits result t heq hlost =>
    rw [heq] at hr
    have hr : s.attempts.getAttempt d.attemptId = some r := hr
    rw [State.isLost, hr, Option.any_some, hst] at hlost
    cases hlost
  | lost ids message u hids ha =>
    rw [ha, AttemptRegistry.markLost, AttemptRegistry.getAttempt_update, if_pos rfl] at hr
    obtain ⟨r₀, -, rfl⟩ := Option.map_eq_some_iff.1 hr
    cases hst
  | blamed category message result hids ha hcategory hculprits =>
    have hr₁ := hr
    rw [ha] at hr₁
    exact ⟨category, message, result, (getAttempt_markFailed hr₁).2, hids, ha, hculprits⟩
  | failed c message result hids ha hcategory =>
    rw [ha] at hr
    rw [(getAttempt_markFailed hr).2, hcategory] at hex
    cases hex
  | succeeded hids ha =>
    rw [status_succeeded ha hr] at hst
    cases hst

theorem exclusionStep_resume {now : ℚ} (hok : DispatchOk s.attempts w d)
    (hpc : s.runs.get? w = some (.dispatch f d)) (hcon : Concluded s s' w f d)
    (hf' : s'.frameOf w = some f') : ExclusionStep s (.resume w now) s' w f' := by
  have hold : s.frameOf w = some f := by rw [State.frameOf, hpc]
  have hblamed := @blamedBy_resume s s' w f d now hpc
  by_cases hfails : ∃ r ∈ s'.attempts.getAttempt d.attemptId, r.status = .failed ∧
      exhausts r.failureCategory = true
  · obtain ⟨r, hr, hst, hex⟩ := hfails
    obtain ⟨category, message, result, hc, hids, -, hculprits⟩ := hcon.of_failed hr hst hex
    refine .blamed f d hold (fun x => ?_) fun m => ?_
    · rw [hids.frame hf' x, List.mem_singleton]
    · rw [hblamed m, ← hculprits m]
      constructor
      · rintro ⟨r', hr', -, category', hc', -, hm⟩
        obtain rfl := Option.some.inj (hr'.symm.trans hr)
        obtain rfl := Option.some.inj (hc'.symm.trans hc)
        exact hm
      · exact fun hm => ⟨r, hr, hst, category, hc, hc ▸ hex, hm⟩
  · have hnot : ∀ m, ¬ BlamedBy s (.resume w now) s' w m := by
      intro m hm
      obtain ⟨r, hr, hst, category, hc, hex, -⟩ := (hblamed m).1 hm
      exact hfails ⟨r, hr, hst, by rw [Option.mem_def.1 hc]; exact hex⟩
    cases hcon with
    | waits r t heq hlost =>
      rw [heq, State.frameOf, runs_setPc] at hf'
      obtain rfl := Option.some.inj hf'
      exact .carried f hold (fun _ => Iff.rfl) hnot
    | lost ids message u hids ha =>
      exact .vanished f hold (fun x hx => (hids.frame hf' x).2 (.inl hx))
        (hasLost_of_markLost hok ha) hnot
    | blamed category message result hids ha hex hculprits =>
      obtain ⟨r₀, hr₀, -⟩ := hok.recorded
      have hget : s'.attempts.getAttempt d.attemptId =
          some ((Mark.failed (some category) message result).write r₀) := by
        rw [ha, AttemptRegistry.markFailed, AttemptRegistry.getAttempt_update, if_pos rfl, hr₀]
        rfl
      exact absurd ⟨_, hget, rfl, hex⟩ hfails
    | failed c message result hids ha hex =>
      exact .carried f hold (fun x => by rw [hids.frame hf' x]; simp) hnot
    | succeeded hids ha => exact .carried f hold (fun x => by rw [hids.frame hf' x]; simp) hnot

theorem hasLost_of_vanished {p : PlacementDecision} {rest : List PlacementDecision}
    {execId : String} {message : Option String} {missing : List String}
    (ha : s'.attempts = (assignNew s.attempts w p
      (State.newGroup f execId (p :: rest))).markLost (s.attempts.nextId w) message missing) :
    HasLost s' w := by
  obtain ⟨hlisted, hget⟩ := getAttempt_vanished ha
  exact ⟨_, hlisted, _, hget, rfl⟩

/-- **What a step does to the workers that a run excludes.** -/
theorem step_exclusion (hs : DispatchInv s) (hg : BlamesLeader w s a)
    (hrestart : a.isRestart = false) (h : step cfg s a = some s') (hf' : s'.frameOf w = some f') :
    ExclusionStep s a s' w f' := by
  have hkept : s'.runs.get? w = s.runs.get? w → a.segmentOf ≠ some w →
      ExclusionStep s a s' w f' := by
    intro he hseg
    rw [frameOf_congr he] at hf'
    refine .carried f' hf' (fun _ => Iff.rfl) (not_blamedBy fun now ha => hseg ?_)
    rw [ha]
    rfl
  by_cases hseg : a.segmentOf = some w
  · cases segment_of_eq hseg with
    | startRun =>
      rcases (startRun_spec h).2 with hnone | ⟨r, spec, f₁, hr, hready, hout, hf₁, heq⟩
      · rw [hnone] at hf'
        cases hf'
      · rw [State.frameOf, hf₁] at hf'
        obtain rfl := Option.some.inj hf'
        refine .entered rfl ?_
        obtain ⟨-, -, -, -, hexhausted⟩ := promoteSpare_retries
          ((s.updateState w .validating).updateState w .placing) (s.initialFrame w spec)
        rw [heq]
        exact hexhausted
    | place ranking now execId =>
      obtain ⟨f₀, hf₀, -, ⟨hnone, -⟩ | ⟨p, rest, -, hrec⟩⟩ := place_spec h
      · rw [hnone] at hf'
        cases hf'
      · have hold : s.frameOf w = some f₀ := by rw [State.frameOf, hf₀]
        have hnot : ∀ m, ¬ BlamedBy s (.place w ranking now execId) s' w m :=
          not_blamedBy fun _ h => by cases h
        obtain ⟨-, -, -, -, hexhausted⟩ := promoteSpare_retries s f₀
        cases hrec with
        | dispatched d hd =>
          rw [State.frameOf, hd] at hf'
          obtain rfl := Option.some.inj hf'
          exact .carried f₀ hold (fun x => by rw [hexhausted]) hnot
        | vanished message missing hmissing ha hgoes =>
          rcases hgoes with hnone | ⟨f₁, hf₁, hr, -⟩
          · rw [hnone] at hf'
            cases hf'
          · rw [State.frameOf, hf₁] at hf'
            obtain rfl := Option.some.inj hf'
            refine .vanished f₀ hold (fun x hx => hr.exhausted x ?_) (hasLost_of_vanished ha) hnot
            rwa [hexhausted]
    | callEvent i event =>
      obtain ⟨f, d, c, phase, hpc, rfl⟩ := advanceCall_cases h
      rw [State.frameOf, runs_setPc] at hf'
      obtain rfl := Option.some.inj hf'
      exact .carried f (by rw [State.frameOf, hpc]) (fun _ => Iff.rfl)
        (not_blamedBy fun _ h => by cases h)
    | resume now =>
      obtain ⟨f, d, reply, hpc, -⟩ := resume_cases h
      have hdispatch : s.dispatchOf w = some d := by rw [State.dispatchOf, hpc]
      exact exclusionStep_resume (hs.own w f d (.inl hpc)) hpc
        (resume_concluded hpc (hg rfl d hdispatch) h) hf'
    | drainResume now =>
      obtain ⟨f, d, ids, message, u, hat, hids, ha⟩ := drainResume_excludes hs.plain h
      have hold : s.frameOf w = some f := by
        rcases hat with hat | ⟨r, t, hat⟩ <;> rw [State.frameOf, hat]
      exact .vanished f hold (fun x hx => (hids.frame hf' x).2 (.inl hx))
        (hasLost_of_markLost (hs.own w f d hat) ha) (not_blamedBy fun _ h => by cases h)
    | finishRun =>
      rw [State.frameOf, (finishRun_cases h).2.1] at hf'
      cases hf'
  · rcases runs_foreign h hseg hrestart with he | he
    · exact hkept he hseg
    · rw [State.frameOf, he] at hf'
      cases hf'

end Aidars.Orchestrator
