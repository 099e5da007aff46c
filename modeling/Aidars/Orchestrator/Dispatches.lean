import Aidars.Orchestrator.Marks
import Aidars.Orchestrator.Ownership

/-!
# Dispatches and the attempts they are for

A run that waits for the answer of a dispatch holds the dispatch in its local variables, and the
registry holds the attempt. `DispatchInv` states that the two agree: the attempt is filed under its
identifier and listed for the workload, it is assigned to the worker of the decision, and its group
has the members of the dispatch. In particular every worker that an answer reports unavailable is
one of the dispatch (`reports_dispatchReply`). Unlike `LedgerInv` this holds along all runs,
whatever a restart fails to read back.
-/

namespace Aidars.Orchestrator

open AttemptRegistry (Marked Fixed)

variable {cfg : Config} {s s' : State} {w v x : String} {a : Action} {f f' : Frame} {d : Dispatch}
  {reg reg' : AttemptRegistry} {r r' : AttemptRecord} {reply : Reply}

/-! ## What an answer reports -/

theorem mem_aggregate {spec : WorkloadSpec} {g : ExecutionGroup}
    {outcomes : List (String × CallReply)} (hx : x ∈ (State.aggregate spec g outcomes).2.1 ∨
      x ∈ (State.aggregate spec g outcomes).2.2) : x ∈ outcomes.map Prod.fst := by
  have htransport : x ∈ (State.aggregate spec g outcomes).2.2 → x ∈ outcomes.map Prod.fst := by
    intro h
    obtain ⟨o, ho, hox⟩ := List.mem_filterMap.1 (PySet.mem_ofList.1 h)
    split at hox
    · cases hox
    · exact List.mem_map.2 ⟨o, ho, Option.some.inj hox⟩
  rcases hx with hx | hx
  · rcases PySet.mem_union.1 hx with hx | hx
    · exact htransport hx
    · obtain ⟨⟨wid, r⟩, hr, hrx⟩ := List.mem_filterMap.1 (PySet.mem_ofList.1 hx)
      obtain ⟨o, ho, hor⟩ := List.mem_filterMap.1 hr
      split at hor
      · obtain rfl : o.1 = wid := congrArg Prod.fst (Option.some.inj hor)
        dsimp only at hrx
        split_ifs at hrx
        exact List.mem_map.2 ⟨o, ho, Option.some.inj hrx⟩
      · cases hor
  · exact htransport hx

theorem mapM_fst {l : List Call} {outcomes : List (String × CallReply)}
    (h : (l.mapM fun (c : Call) => c.reply?.map (Prod.mk c.workerId)) = some outcomes) :
    outcomes.map Prod.fst = l.map (·.workerId) := by
  induction l generalizing outcomes with
  | nil =>
    obtain rfl := Option.some.inj h
    rfl
  | cons c l ih =>
    rw [List.mapM_cons] at h
    obtain ⟨o, ho, h⟩ := Option.bind_eq_some_iff.1 h
    obtain ⟨rest, hrest, h⟩ := Option.bind_eq_some_iff.1 h
    obtain rfl := Option.some.inj h
    obtain ⟨reply, -, rfl⟩ := Option.map_eq_some_iff.1 ho
    rw [List.map_cons, List.map_cons, ih hrest]

/-- **The workers that an answer reports unavailable are workers that were called.** -/
theorem reports_dispatchReply (h : State.dispatchReply cfg f d = some reply)
    (hx : reply.Reports x) : x ∈ d.calls.map (·.workerId) := by
  unfold State.dispatchReply at h
  split at h
  · obtain rfl := Option.some.inj h
    exact absurd hx id
  · split at h
    · rename_i g _
      obtain ⟨outcomes, hout, rfl⟩ := Option.map_eq_some_iff.1 h
      rw [← mapM_fst hout]
      refine @mem_aggregate x f.spec g outcomes ?_
      unfold State.groupReply at hx
      dsimp only at hx
      split_ifs at hx
      · split at hx
        · exact absurd hx id
        · exact hx
        · exact hx
      · exact hx
    · obtain ⟨c, -, rfl⟩ := Option.map_eq_some_iff.1 h
      cases c with
      | result r => exact absurd (hx.elim id id) (PySet.notMem_empty x)
      | submitUnavailable m => exact absurd hx id
      | recordLost m => exact absurd hx id
      | otherException m => exact absurd hx id

/-! ## The attempt of a dispatch -/

/-- The dispatch of a workload agrees with the attempt in the registry. -/
structure DispatchOk (reg : AttemptRegistry) (w : String) (d : Dispatch) : Prop where
  id : ∃ n, d.attemptId = makeAttemptId w n
  listed : d.attemptId ∈ reg.idsOf w
  recorded : ∃ r, reg.getAttempt d.attemptId = some r ∧
    r.workerId = some d.decision.selectedWorkerId ∧
    r.executionGroup.map (·.workerIds) = d.executionGroup.map (·.workerIds)
  calls : d.calls.map (·.workerId) = d.workerIds
  selected : d.decision.selectedWorkerId ∈ d.workerIds

/-- Attempts are filed, and dispatches agree with theirs. -/
structure DispatchInv (s : State) : Prop where
  plain : DrainsPlain s
  filed : FiledIds s.attempts
  own : ∀ w f d, AtAttempt s w f d → DispatchOk s.attempts w d
  transport : ∀ w f d r t, s.runs.get? w = some (.drainWait f d r t) → ∀ x ∈ t, x ∈ d.workerIds

theorem dispatchInv_init : DispatchInv {} := by
  refine ⟨fun w f d r t hpc => ?_, fun id r hr => ?_, fun w f d hat => ?_,
    fun w f d r t hpc => ?_⟩
  · cases hpc
  · cases hr
  · rcases hat with hat | ⟨r, t, hat⟩ <;> cases hat
  · cases hpc

theorem FiledIds.of_marked {P : AttemptRegistry → String → Mark → Prop} (h : FiledIds reg)
    (hm : Marked P reg reg') : FiledIds reg' := by
  intro id r' hr'
  obtain ⟨r, hr, hfix⟩ := (hm.record id).2 r' hr'
  rw [hfix.attemptId]
  exact h id r hr

theorem DispatchOk.of_marked {P : AttemptRegistry → String → Mark → Prop}
    (h : DispatchOk reg w d) (hm : Marked P reg reg') : DispatchOk reg' w d := by
  obtain ⟨r, hr, hworker, hgroup⟩ := h.recorded
  obtain ⟨r', hr', hfix⟩ := (hm.record d.attemptId).1 r hr
  refine ⟨h.id, ?_, ⟨r', hr', hfix.workerId.trans hworker, hfix.members.trans hgroup⟩, h.calls,
    h.selected⟩
  rw [hm.idsOf w]
  exact h.listed

/-- An attempt names the workers it was made for. -/
theorem names_of_mem_selectedIds {p : PlacementDecision} {g : Option ExecutionGroup}
    (hworker : r.workerId = some p.selectedWorkerId)
    (hgroup : r.executionGroup.map (·.workerIds) = g.map (·.workerIds))
    (hx : x ∈ selectedIds p g) : r.names x = true := by
  unfold AttemptRecord.names
  rw [hworker, Bool.or_eq_true]
  cases g with
  | none => exact .inl (decide_eq_true (congrArg some (List.mem_singleton.1 hx).symm))
  | some g =>
    obtain ⟨g', hg', hids⟩ := Option.map_eq_some_iff.1 hgroup
    refine .inr ?_
    rw [hg', Option.any_some, hids]
    exact List.contains_iff_mem.2 hx

theorem DispatchOk.names (h : DispatchOk reg w d) (hr : reg.getAttempt d.attemptId = some r)
    (hx : x ∈ d.workerIds) : r.names x = true := by
  obtain ⟨r₁, hr₁, hworker, hgroup⟩ := h.recorded
  obtain rfl := Option.some.inj (hr.symm.trans hr₁)
  exact names_of_mem_selectedIds hworker hgroup hx

/-! ## Placement -/

/-- The record of an attempt when it has been assigned to the workers of its decision. -/
def assignedRecord (reg : AttemptRegistry) (w : String) (p : PlacementDecision)
    (g : Option ExecutionGroup) : AttemptRecord :=
  { reg.newAttempt w (some p) g with status := .assigned, workerId := some p.selectedWorkerId }

/-- The record of an attempt after the segment that assigned it: it runs, or it is lost because
workers of its own have vanished. -/
inductive Opened (r₀ : AttemptRecord) (ids : List String) : AttemptRecord → Prop
  | running : Opened r₀ ids { r₀ with
      status := .running
      executionGroup := AttemptRegistry.setGroupState .running r₀.executionGroup }
  | lost (m : Option String) (missing : List String) (h : ∀ x ∈ missing, x ∈ ids) :
    Opened r₀ ids ((Mark.lost m missing).write r₀)

theorem Opened.fixed {r₀ : AttemptRecord} {ids : List String} (h : Opened r₀ ids r) :
    Fixed r₀ r := by
  cases h with
  | running => exact ⟨rfl, rfl, rfl, rfl, AttemptRegistry.members_setGroupState _ _⟩
  | lost m missing => exact AttemptRegistry.fixed_write _ r₀

/-- The attempts after a placement: one is new. -/
theorem getAttempt_recorded {p : PlacementDecision} {rest : List PlacementDecision}
    {execId : String} (h : Recorded s s' w f execId p rest) :
    ∃ r, Opened (assignedRecord s.attempts w p (State.newGroup f execId (p :: rest)))
        (selectedIds p (State.newGroup f execId (p :: rest))) r ∧
      ∀ id, s'.attempts.getAttempt id =
        if id = s.attempts.nextId w then some r else s.attempts.getAttempt id := by
  cases h with
  | dispatched d hpc hmade hid hattempts =>
    refine ⟨_, .running, fun id => ?_⟩
    rw [hattempts, AttemptRegistry.markRunning, AttemptRegistry.getAttempt_update,
      getAttempt_assignNew, getAttempt_assignNew, if_pos rfl]
    split_ifs <;> rfl
  | vanished m missing hmissing hattempts hgoes =>
    refine ⟨_, .lost m missing hmissing, fun id => ?_⟩
    rw [hattempts, AttemptRegistry.markLost, AttemptRegistry.getAttempt_update,
      getAttempt_assignNew, getAttempt_assignNew, if_pos rfl]
    split_ifs <;> rfl

theorem idsOf_recorded {p : PlacementDecision} {rest : List PlacementDecision} {execId : String}
    (h : Recorded s s' w f execId p rest) (v : String) : s'.attempts.idsOf v =
      if v = w then s.attempts.idsOf w ++ [s.attempts.nextId w] else s.attempts.idsOf v := by
  cases h with
  | dispatched d hpc hmade hid hattempts =>
    rw [hattempts]
    exact idsOf_assignNew s.attempts w v p (State.newGroup f execId (p :: rest))
  | vanished m missing hmissing hattempts hgoes =>
    rw [hattempts]
    exact idsOf_assignNew s.attempts w v p (State.newGroup f execId (p :: rest))

/-- The identifiers of attempts tell their workloads apart. -/
theorem DispatchOk.ne_nextId (h : DispatchOk reg w d) (hne : w ≠ v) :
    d.attemptId ≠ reg.nextId v := by
  obtain ⟨n, hn⟩ := h.id
  rw [hn]
  exact fun he => hne (makeAttemptId_inj he).1

theorem DispatchOk.of_recorded {p : PlacementDecision} {rest : List PlacementDecision}
    {execId : String} (h : DispatchOk s.attempts w d) (hne : w ≠ v)
    (hrec : Recorded s s' v f execId p rest) : DispatchOk s'.attempts w d := by
  obtain ⟨r, -, hget⟩ := getAttempt_recorded hrec
  refine ⟨h.id, ?_, ?_, h.calls, h.selected⟩
  · rw [idsOf_recorded hrec, if_neg hne]
    exact h.listed
  · rw [hget, if_neg (h.ne_nextId hne)]
    exact h.recorded

theorem selected_of_made {p : PlacementDecision} {rest : List PlacementDecision} {execId : String}
    (h : d.Made f execId (p :: rest)) : d.decision.selectedWorkerId ∈ d.workerIds := by
  have hp : p = d.decision := Option.some.inj h.decision
  have hg := h.executionGroup
  unfold Dispatch.workerIds selectedIds
  unfold State.newGroup at hg
  split_ifs at hg
  · rw [hg, ← hp]
    exact List.mem_cons_self
  · rw [hg]
    exact List.mem_singleton_self _

theorem dispatchOk_recorded {p : PlacementDecision} {rest : List PlacementDecision}
    {execId : String} (hrec : Recorded s s' w f execId p rest)
    (hpc : s'.runs.get? w = some (.dispatch f' d)) : DispatchOk s'.attempts w d := by
  obtain ⟨r, hopen, hget⟩ := getAttempt_recorded hrec
  have hids := idsOf_recorded hrec w
  obtain ⟨-, hmade, hid, -⟩ := hrec.of_dispatch hpc
  have hp : p = d.decision := Option.some.inj hmade.decision
  refine ⟨⟨_, hid⟩, ?_, ⟨r, ?_, ?_, ?_⟩, hmade.calls, selected_of_made hmade⟩
  · rw [hids, if_pos rfl, hid]
    exact List.mem_append_right _ (List.mem_singleton_self _)
  · rw [hget, if_pos hid]
  · rw [hopen.fixed.workerId, ← hp]
    rfl
  · rw [hopen.fixed.members, hmade.executionGroup]
    rfl

/-! ## All steps -/

/-- How a step leaves the attempts: it places one, a restart reads them back, or it marks some. -/
inductive AttemptStep (cfg : Config) (s : State) (a : Action) (s' : State) : Prop
  | placed (v : String) (ranking : Ranking) (now : ℚ) (execId : String) (f : Frame)
      (p : PlacementDecision) (rest : List PlacementDecision)
      (ha : a = .place v ranking now execId) (hpc : s.runs.get? v = some (.lockWait f))
      (hchoose : (s.promoteSpare f).1.choose cfg v (s.promoteSpare f).2 ranking now =
        some (p :: rest))
      (hrec : Recorded (s.promoteSpare f).1 s' v (s.promoteSpare f).2 execId p rest)
  | restarted (ha : a.isRestart = true) (hattempts : s'.attempts = State.restoreAttempts s.attempts)
      (hruns : s'.runs = ∅)
  | answered (v : String) (f : Frame) (d : Dispatch) (reply : Reply)
      (ha : a.segmentOf = some v) (hat : AtAttempt s v f d)
      (hreports : ∀ x, reply.Reports x → x ∈ d.workerIds)
      (hmarked : Marked (Cause s v d reply) s.attempts s'.attempts)
  | evicted (ha : a.segmentOf = none) (hmarked : Marked Evicts s.attempts s'.attempts)
  | same (hattempts : s'.attempts = s.attempts)

/-- **What a step can do to the attempts.** -/
theorem step_attemptStep (hs : DispatchInv s) (h : step cfg s a = some s') :
    AttemptStep cfg s a s' := by
  cases hrestart : a.isRestart with
  | true =>
    obtain ⟨now, rfl, rfl⟩ := restart_of_step hrestart h
    exact .restarted rfl rfl rfl
  | false =>
    cases hseg : a.segmentOf with
    | none => exact .evicted hseg (step_evicts h hseg hrestart)
    | some u =>
      cases segment_of_eq hseg with
      | startRun => exact .same (startRun_cases h).2.1
      | place ranking now execId =>
        obtain ⟨f₀, hpc, -, ⟨-, ha⟩ | ⟨p, rest, hchoose, hrec⟩⟩ := place_spec h
        · exact .same ha
        · exact .placed u ranking now execId f₀ p rest rfl hpc hchoose hrec
      | callEvent i event =>
        obtain ⟨f', d', c, phase, -, rfl⟩ := advanceCall_cases h
        exact .same rfl
      | resume now =>
        obtain ⟨f, d, reply, hpc, hreply, -, hmarked⟩ := resume_marked h
        refine .answered u f d reply rfl (.inl hpc) (fun x hx => ?_) hmarked
        rw [← (hs.own u f d (.inl hpc)).calls]
        exact reports_dispatchReply hreply hx
      | drainResume now =>
        obtain ⟨f, d, r, t, hpc, hmarked⟩ := drainResume_marked h
        refine .answered u f d _ rfl (.inr ⟨r, t, hpc⟩) (fun x hx => ?_)
          (hmarked (hs.plain u f d r t hpc))
        rcases hx with hx | hx
        · exact absurd hx (PySet.notMem_empty x)
        · exact hs.transport u f d r t hpc x hx
      | finishRun => exact .same (finishRun_cases h).2.2.2.1

theorem filedIds_step (hs : DispatchInv s) (h : step cfg s a = some s') :
    FiledIds s'.attempts := by
  cases step_attemptStep hs h with
  | placed v ranking now execId f₀ p rest ha hpc hchoose hrec =>
    obtain ⟨r, hopen, hget⟩ := getAttempt_recorded hrec
    intro id r' hr'
    rw [hget] at hr'
    split_ifs at hr' with hid
    · obtain rfl := Option.some.inj hr'
      rw [hid]
      exact hopen.fixed.attemptId
    · rw [attempts_promoteSpare] at hr'
      exact hs.filed id r' hr'
  | restarted ha hattempts hruns =>
    intro id r' hr'
    rw [hattempts] at hr'
    obtain ⟨r, hr, r₁, hr₁, rfl⟩ := getAttempt_restoreAttempts.1 hr'
    rw [(loseInFlight_identity r₁).1, (StateStore.reloadAttempt_some hr₁).1]
    exact hs.filed id r hr
  | answered v f₀ d₀ reply ha hat hreports hmarked => exact hs.filed.of_marked hmarked
  | evicted ha hmarked => exact hs.filed.of_marked hmarked
  | same hattempts =>
    rw [hattempts]
    exact hs.filed

theorem DispatchOk.step (hs : DispatchInv s) (h : step cfg s a = some s')
    (hseg : a.segmentOf ≠ some w) (hrestart : a.isRestart = false)
    (hok : DispatchOk s.attempts w d) : DispatchOk s'.attempts w d := by
  cases step_attemptStep hs h with
  | placed v ranking now execId f₀ p rest ha hpc hchoose hrec =>
    subst ha
    refine DispatchOk.of_recorded ?_ (fun he => hseg (he ▸ rfl)) hrec
    rw [attempts_promoteSpare]
    exact hok
  | restarted ha => rw [hrestart] at ha; cases ha
  | answered v f₀ d₀ reply ha hat hreports hmarked => exact hok.of_marked hmarked
  | evicted ha hmarked => exact hok.of_marked hmarked
  | same hattempts =>
    rw [hattempts]
    exact hok

theorem own_step (hs : DispatchInv s) (h : step cfg s a = some s') (hat : AtAttempt s' w f d) :
    DispatchOk s'.attempts w d := by
  rcases step_atAttempt hs.plain h hat with hat | ⟨hseg, hrestart, hruns⟩
  · cases hat with
    | placed ranking now execId f₀ p rest ha hpc hchoose hrec hat =>
      exact dispatchOk_recorded hrec hat
    | called d₀ hpc heq hid hdec hgroup hcalls =>
      have hids : d.workerIds = d₀.workerIds := by
        rw [Dispatch.workerIds, Dispatch.workerIds, hdec, hgroup]
      obtain ⟨h₁, h₂, h₃, h₄, h₅⟩ := hs.own w f d₀ (.inl hpc)
      rw [heq]
      refine ⟨hid ▸ h₁, hid ▸ h₂, ?_, by rw [hcalls, h₄, hids], by rw [hdec, hids]; exact h₅⟩
      rw [hid, hdec, hgroup]
      exact h₃
    | drained reply r t hpc heq =>
      rw [heq]
      exact hs.own w f d (.inl hpc)
  · exact (hs.own w f d ((atAttempt_congr hruns).1 hat)).step hs h hseg hrestart

theorem transport_step (hs : DispatchInv s) (h : step cfg s a = some s')
    {r : WorkloadExecutionResult} {t : PySet String}
    (hpc : s'.runs.get? w = some (.drainWait f d r t)) : ∀ x ∈ t, x ∈ d.workerIds := by
  rcases step_atAttempt hs.plain h (.inr ⟨r, t, hpc⟩) with hat | ⟨-, -, hruns⟩
  · cases hat with
    | placed ranking now execId f₀ p rest ha hpc₀ hchoose hrec hat =>
      rw [hpc] at hat
      cases hat
    | called d₀ hpc₀ heq =>
      rw [heq, runs_setPc] at hpc
      cases hpc
    | drained reply r₁ t₁ hpc₀ heq hreply ht =>
      rw [heq, runs_setPc] at hpc
      cases hpc
      intro x hx
      rw [← (hs.own w f d (.inl hpc₀)).calls]
      exact reports_dispatchReply hreply (ht x hx)
  · exact hs.transport w f d r t (hruns ▸ hpc)

/-- **Every step keeps dispatches and attempts in agreement.** -/
theorem dispatchInv_step (hs : DispatchInv s) (h : step cfg s a = some s') : DispatchInv s' where
  plain := step_drainsPlain hs.plain h
  filed := filedIds_step hs h
  own _ _ _ hat := own_step hs h hat
  transport _ _ _ _ _ hpc := transport_step hs h hpc

/-- Where a dispatch after a step comes from: it was there before, with other calls, or placement
has just made it. -/
inductive HeldStep (cfg : Config) (s : State) (a : Action) (s' : State) (w : String)
    (d : Dispatch) :
    Prop
  | held (f₀ : Frame) (d₀ : Dispatch) (hat : AtAttempt s w f₀ d₀)
      (hid : d.attemptId = d₀.attemptId) (hworkers : d.workerIds = d₀.workerIds)
  | placed (ranking : Ranking) (now : ℚ) (execId : String) (f₀ : Frame) (p : PlacementDecision)
      (rest : List PlacementDecision) (ha : a = .place w ranking now execId)
      (hpc : s.runs.get? w = some (.lockWait f₀))
      (hchoose : (s.promoteSpare f₀).1.choose cfg w (s.promoteSpare f₀).2 ranking now =
        some (p :: rest))
      (hmade : d.Made (s.promoteSpare f₀).2 execId (p :: rest))
      (hid : d.attemptId = s.attempts.nextId w)
      (hattempts : s'.attempts = (assignNew s.attempts w p
        (State.newGroup (s.promoteSpare f₀).2 execId (p :: rest))).markRunning
          (s.attempts.nextId w))

/-- **Where a dispatch comes from.** -/
theorem step_heldStep (hs : DispatchInv s) (h : step cfg s a = some s') (hat : AtAttempt s' w f d) :
    HeldStep cfg s a s' w d := by
  rcases step_atAttempt hs.plain h hat with hat | ⟨-, -, hruns⟩
  · cases hat with
    | placed ranking now execId f₀ p rest ha hpc hchoose hrec hat =>
      obtain ⟨-, hmade, hid, hattempts⟩ := hrec.of_dispatch hat
      rw [attempts_promoteSpare] at hid hattempts
      exact .placed ranking now execId f₀ p rest ha hpc hchoose hmade hid hattempts
    | called d₀ hpc heq hid hdec hgroup =>
      refine .held f d₀ (.inl hpc) hid ?_
      rw [Dispatch.workerIds, Dispatch.workerIds, hdec, hgroup]
    | drained reply r t hpc => exact .held f d (.inl hpc) rfl rfl
  · exact .held f d ((atAttempt_congr hruns).1 hat) rfl rfl

end Aidars.Orchestrator
