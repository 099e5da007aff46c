import Aidars.Orchestrator.Specs

/-!
# Runs own their attempts

`LedgerInv` is the invariant that the results about attempts share: the attempt registry is a
ledger, and the attempt that a run has dispatched belongs to its workload and is running or lost.
It holds along every run of the coordinator in which a restart reads all attempts back
(`ReadsBack`), because no run touches an attempt of another workload.
-/

namespace Aidars.Orchestrator

open AttemptRegistry (Moves Ledger)

variable {cfg : Config} {s s' : State} {w v : String} {a : Action} {f : Frame} {d : Dispatch}
  {f' : Frame} {reg reg' : AttemptRegistry} {r r' : AttemptRecord}

/-- A restart reads all attempts back. -/
def ReadsBack (s : State) : Action → Prop
  | .restart _ => ∀ r ∈ s.attempts.attempts.values, (StateStore.reloadAttempt r).isSome = true
  | _ => True

instance (s : State) (a : Action) : Decidable (ReadsBack s a) := by
  apply a.casesOn (motive := fun a => Decidable (ReadsBack s a)) <;> intros <;>
    unfold ReadsBack <;> infer_instance

/-- The run of the workload has dispatched the attempt and not handled its answer. -/
def AtAttempt (s : State) (w : String) (f : Frame) (d : Dispatch) : Prop :=
  s.runs.get? w = some (.dispatch f d) ∨ ∃ r t, s.runs.get? w = some (.drainWait f d r t)

/-- The attempt belongs to the workload, and is running or lost. -/
def OwnAttempt (reg : AttemptRegistry) (w id : String) : Prop :=
  ∃ r, reg.getAttempt id = some r ∧ r.workloadId = w ∧ (r.status = .running ∨ r.status = .lost)

/-- The registry is a ledger, and runs own the attempts they are at. -/
structure LedgerInv (s : State) : Prop where
  plain : DrainsPlain s
  ledger : Ledger s.attempts
  owned : ∀ w f d, AtAttempt s w f d → OwnAttempt s.attempts w d.attemptId

/-! ## Restart -/

theorem loseInFlight_identity (r : AttemptRecord) :
    (State.loseInFlight r).attemptId = r.attemptId ∧
      (State.loseInFlight r).workloadId = r.workloadId := by
  unfold State.loseInFlight
  split_ifs <;> exact ⟨rfl, rfl⟩

theorem counted_loseInFlight (r : AttemptRecord) : (State.loseInFlight r).counted = r.counted := by
  unfold State.loseInFlight
  split_ifs with h
  · have hne : r.status ≠ .succeeded := by
      intro hs
      rw [hs] at h
      cases h
    rw [AttemptRegistry.counted_of_status_ne hne]
    exact AttemptRegistry.counted_of_status_ne (by simp)
  · rfl

/-- An attempt as a restart reads it back. -/
def Restored (r r' : AttemptRecord) : Prop :=
  ∃ r₁, StateStore.reloadAttempt r = some r₁ ∧ r' = State.loseInFlight r₁

/-- A restart that reads all attempts back moves each of them. -/
theorem moves_restoreAttempts
    (h : ∀ r ∈ reg.attempts.values, (StateStore.reloadAttempt r).isSome = true) (hl : Ledger reg) :
    Moves Restored reg (State.restoreAttempts reg) := by
  have hget : ∀ id r, reg.getAttempt id = some r →
      ∃ r₁, StateStore.reloadAttempt r = some r₁ := by
    intro id r hr
    exact Option.isSome_iff_exists.1 (h r (Dict.mem_values.2 ⟨id, hr⟩))
  refine ⟨?_, ?_, fun id r hr => ?_⟩
  · unfold State.restoreAttempts
    dsimp only
    refine Dict.mapValues_eq_self fun w ids hids => ?_
    rw [List.filter_eq_self]
    intro id hid
    have hmem : id ∈ reg.idsOf w := by
      unfold AttemptRegistry.idsOf
      rw [hids]
      exact hid
    obtain ⟨r, hr, -⟩ := hl.present w id hmem
    obtain ⟨r₁, hr₁⟩ := hget id r hr
    rw [hr, Option.any_some, hr₁]
    rfl
  · unfold State.restoreAttempts
    dsimp only
    refine Dict.keys_filterMapValues fun r hr => ?_
    obtain ⟨r₁, hr₁⟩ := Option.isSome_iff_exists.1 (h r hr)
    rw [hr₁]
    rfl
  · obtain ⟨r₁, hr₁⟩ := hget id r hr
    obtain ⟨hid, hw, -⟩ := StateStore.reloadAttempt_some hr₁
    obtain ⟨hid', hw'⟩ := loseInFlight_identity r₁
    exact ⟨State.loseInFlight r₁, getAttempt_restoreAttempts.2 ⟨r, hr, r₁, hr₁, rfl⟩,
      ⟨r₁, hr₁, rfl⟩,
      hid'.trans hid, hw'.trans hw⟩

/-! ## Attempts of other workloads -/

theorem getAttempt_assignNew (reg : AttemptRegistry) (w id : String) (p : PlacementDecision)
    (g : Option ExecutionGroup) : (assignNew reg w p g).getAttempt id =
      if id = reg.nextId w then some { reg.newAttempt w (some p) g with
        status := .assigned, workerId := some p.selectedWorkerId }
      else reg.getAttempt id := by
  unfold assignNew AttemptRegistry.markAssigned
  simp only [AttemptRegistry.getAttempt_update, AttemptRegistry.getAttempt_createAttempt]
  split_ifs <;> rfl

theorem OwnAttempt.of_loses {id : String} (h : OwnAttempt reg w id)
    (hm : Moves (Loses reg) reg reg') : OwnAttempt reg' w id := by
  obtain ⟨r, hr, hw, hst⟩ := h
  obtain ⟨r', hr', hloses, -, hw'⟩ := hm.record id r hr
  refine ⟨r', hr', hw'.trans hw, ?_⟩
  rcases hloses with rfl | ⟨-, hlost⟩
  · exact hst
  · exact .inr hlost

theorem eq_of_settles {id : String} {st : AttemptStatus} (hl : Ledger reg)
    (hown : OwnAttempt reg v id) (h : Settles reg v id st r r') (hne : r.workloadId ≠ v) :
    r' = r := by
  rcases h with rfl | ⟨hr, -⟩ | ⟨hother, -⟩
  · rfl
  · obtain ⟨r₁, hr₁, hw, -⟩ := hown
    obtain rfl := Option.some.inj (hr.symm.trans hr₁)
    exact absurd hw hne
  · exact absurd (hother hl).1 hne

theorem OwnAttempt.of_settles {id id' : String} {st : AttemptStatus} (h : OwnAttempt reg w id)
    (hl : Ledger reg) (hown : OwnAttempt reg v id') (hm : Moves (Settles reg v id' st) reg reg')
    (hne : w ≠ v) : OwnAttempt reg' w id := by
  obtain ⟨r, hr, hw, hst⟩ := h
  obtain ⟨r', hr', hsettles, -⟩ := hm.record id r hr
  obtain rfl := eq_of_settles hl hown hsettles (hw ▸ hne)
  exact ⟨r', hr', hw, hst⟩

theorem getAttempt_launched {p : PlacementDecision} {g : Option ExecutionGroup} {id : String}
    (hl : Launched cfg s s' w f p g) (hne : id ≠ s.attempts.nextId w) :
    s'.attempts.getAttempt id = s.attempts.getAttempt id := by
  have hkept := getAttempt_assignNew s.attempts w id p g
  rw [if_neg hne] at hkept
  cases hl with
  | dispatched d hpc hid hattempts =>
    rw [hattempts, AttemptRegistry.markRunning, AttemptRegistry.getAttempt_update, if_neg hne]
    exact hkept
  | vanished m u hattempts =>
    rw [hattempts, AttemptRegistry.markLost, AttemptRegistry.getAttempt_update, if_neg hne]
    exact hkept

theorem ledger_assignNew (hl : Ledger reg) (w : String) (p : PlacementDecision)
    (g : Option ExecutionGroup) : Ledger (assignNew reg w p g) := by
  unfold assignNew AttemptRegistry.markAssigned
  exact Moves.ledger_update (hl.createAttempt w (some p) g) _ fun _ => ⟨rfl, rfl⟩

theorem ledger_launched {p : PlacementDecision} {g : Option ExecutionGroup}
    (hl : Launched cfg s s' w f p g) (hledger : Ledger s.attempts) : Ledger s'.attempts := by
  have hnew := ledger_assignNew hledger w p g
  cases hl with
  | dispatched d hpc hid hattempts =>
    rw [hattempts, AttemptRegistry.markRunning]
    exact Moves.ledger_update hnew _ fun _ => ⟨rfl, rfl⟩
  | vanished m u hattempts =>
    rw [hattempts, AttemptRegistry.markLost]
    exact Moves.ledger_update hnew _ fun _ => ⟨rfl, rfl⟩

theorem ownAttempt_running {p : PlacementDecision} {g : Option ExecutionGroup}
    (hattempts : s'.attempts = (assignNew s.attempts w p g).markRunning (s.attempts.nextId w)) :
    OwnAttempt s'.attempts w (s.attempts.nextId w) := by
  rw [OwnAttempt, hattempts, AttemptRegistry.markRunning, AttemptRegistry.getAttempt_update,
    if_pos rfl, getAttempt_assignNew, if_pos rfl]
  exact ⟨_, rfl, rfl, .inl rfl⟩

theorem ownAttempt_launched {p : PlacementDecision} {g : Option ExecutionGroup}
    (hl : Launched cfg s s' w f p g) : OwnAttempt s'.attempts w (s.attempts.nextId w) := by
  cases hl with
  | dispatched d hpc hid hattempts => exact ownAttempt_running hattempts
  | vanished m u hattempts =>
    rw [OwnAttempt, hattempts, AttemptRegistry.markLost, AttemptRegistry.getAttempt_update,
      if_pos rfl, getAttempt_assignNew, if_pos rfl]
    exact ⟨_, rfl, rfl, .inr rfl⟩

/-! ## The invariant -/

theorem ledgerInv_init : LedgerInv {} := by
  refine ⟨fun w f d r t hpc => ?_, Ledger.empty, fun w f d hat => ?_⟩
  · cases hpc
  · rcases hat with hat | ⟨r, t, hat⟩ <;> cases hat

theorem not_atAttempt_of_returned (h : Returned w s) : ¬ AtAttempt s w f d := by
  rintro (hat | ⟨r, t, hat⟩) <;> rcases h with h | h <;> rw [hat] at h <;> cases h

theorem not_atAttempt_of_lockWait {f' : Frame} (h : s.runs.get? w = some (.lockWait f')) :
    ¬ AtAttempt s w f d := by
  rintro (hat | ⟨r, t, hat⟩) <;> rw [hat] at h <;> cases h

theorem not_atAttempt_of_ending {s₀ : State} {f₀ : Frame} {spent : Prop}
    (h : Ending cfg s₀ s w f₀ spent) : ¬ AtAttempt s w f d := by
  cases h with
  | returned h => exact not_atAttempt_of_returned h
  | retried f' h => exact not_atAttempt_of_lockWait h
  | overran f' h => exact not_atAttempt_of_lockWait h

theorem atAttempt_congr (h : s'.runs.get? w = s.runs.get? w) :
    AtAttempt s' w f d ↔ AtAttempt s w f d := by
  rw [AtAttempt, AtAttempt, h]

theorem not_atAttempt_of_goesOn {ids : List String} (h : GoesOn w s' f ids) :
    ¬ AtAttempt s' w f' d := by
  rcases h with hnone | ⟨f₁, hf₁, -⟩
  · rintro (hat | ⟨r, t, hat⟩) <;> rw [State.frameOf, hat] at hnone <;> cases hnone
  · exact not_atAttempt_of_lockWait hf₁

/-! ## Runs at an attempt -/

theorem Recorded.of_dispatch {p : PlacementDecision} {rest : List PlacementDecision}
    {execId : String} (h : Recorded s s' w f execId p rest)
    (hat : s'.runs.get? w = some (.dispatch f' d)) : f' = f ∧ d.Made f execId (p :: rest) ∧
      d.attemptId = s.attempts.nextId w ∧ s'.attempts = (assignNew s.attempts w p
        (State.newGroup f execId (p :: rest))).markRunning (s.attempts.nextId w) := by
  cases h with
  | dispatched d' hpc hmade hid hattempts =>
    rw [hat] at hpc
    cases hpc
    exact ⟨rfl, hmade, hid, hattempts⟩
  | vanished m missing hmissing hattempts hgoes =>
    exact absurd (.inl hat) (not_atAttempt_of_goesOn hgoes)

theorem recorded_ne_drainWait {p : PlacementDecision} {rest : List PlacementDecision}
    {execId : String} {r : WorkloadExecutionResult} {t : PySet String}
    (hrec : Recorded s s' w f execId p rest) : s'.runs.get? w ≠ some (.drainWait f' d r t) := by
  intro hpc
  cases hrec with
  | dispatched d' hpc' => rw [hpc] at hpc'; cases hpc'
  | vanished m missing hmissing hattempts hgoes =>
    exact not_atAttempt_of_goesOn hgoes (.inr ⟨r, t, hpc⟩)

theorem advanceCall_calls {i : ℕ} {event : State.CallEvent} (h : s.advanceCall w i event = some s')
    (hpc : s'.runs.get? w = some (.dispatch f d)) : ∃ d₀, s.runs.get? w = some (.dispatch f d₀) ∧
      d.attemptId = d₀.attemptId ∧ d.decision = d₀.decision ∧
      d.executionGroup = d₀.executionGroup ∧
      d.calls.map (·.workerId) = d₀.calls.map (·.workerId) := by
  unfold State.advanceCall at h
  split at h
  · rename_i f₀ d₀ hpc₀
    split at h
    · rename_i c hc
      obtain ⟨phase, -, rfl⟩ := Option.map_eq_some_iff.1 h
      rw [runs_setPc] at hpc
      cases hpc
      refine ⟨d₀, hpc₀, rfl, rfl, rfl, ?_⟩
      dsimp only
      rw [List.map_set]
      refine List.ext_getElem? fun j => ?_
      rw [List.getElem?_set]
      split_ifs with hj hlt
      · rw [List.getElem?_map, ← hj, hc]
        rfl
      · rw [← hj, List.getElem?_eq_none (not_lt.1 hlt)]
      · rfl
    · cases h
  · cases h

/-- How a segment leaves its run at an attempt: placement has dispatched it, an event has come to a
call of the dispatch, or the dispatch is answered and its calls are drained. -/
inductive SegmentAt (cfg : Config) (s : State) (a : Action) (s' : State) (w : String) (f : Frame)
    (d : Dispatch) : Prop
  | placed (ranking : Ranking) (now : ℚ) (execId : String) (f₀ : Frame) (p : PlacementDecision)
      (rest : List PlacementDecision) (ha : a = .place w ranking now execId)
      (hpc : s.runs.get? w = some (.lockWait f₀))
      (hchoose : (s.promoteSpare f₀).1.choose cfg w (s.promoteSpare f₀).2 ranking now =
        some (p :: rest))
      (hrec : Recorded (s.promoteSpare f₀).1 s' w (s.promoteSpare f₀).2 execId p rest)
      (hat : s'.runs.get? w = some (.dispatch f d))
  | called (d₀ : Dispatch) (hpc : s.runs.get? w = some (.dispatch f d₀))
      (heq : s' = s.setPc w (.dispatch f d)) (hid : d.attemptId = d₀.attemptId)
      (hdec : d.decision = d₀.decision) (hgroup : d.executionGroup = d₀.executionGroup)
      (hcalls : d.calls.map (·.workerId) = d₀.calls.map (·.workerId))
  | drained (reply : Reply) (r : WorkloadExecutionResult) (t : PySet String)
      (hpc : s.runs.get? w = some (.dispatch f d)) (heq : s' = s.setPc w (.drainWait f d r t))
      (hreply : State.dispatchReply cfg f d = some reply) (ht : ∀ x ∈ t, reply.Reports x)
      (hevent : (s.drainEvents.get? d.attemptId).isSome)

/-- **How a segment leaves its run at an attempt.** -/
theorem segment_atAttempt (hplain : DrainsPlain s) (hseg : a.segmentOf = some w)
    (h : step cfg s a = some s') (hat : AtAttempt s' w f d) : SegmentAt cfg s a s' w f d := by
  cases segment_of_eq hseg with
  | startRun =>
    obtain ⟨-, -, -, -, hr | ⟨f', hf', -⟩⟩ := startRun_cases h
    · exact absurd hat (not_atAttempt_of_returned hr)
    · exact absurd hat (not_atAttempt_of_lockWait hf')
  | place ranking now execId =>
    obtain ⟨f₀, hpc, -, ⟨hnone, -⟩ | ⟨p, rest, hchoose, hrec⟩⟩ := place_spec h
    · rcases hat with hat | ⟨r, t, hat⟩ <;> rw [State.frameOf, hat] at hnone <;> cases hnone
    · rcases hat with hat | ⟨r, t, hat⟩
      · exact .placed ranking now execId f₀ p rest rfl hpc hchoose hrec hat
      · exact absurd hat (recorded_ne_drainWait hrec)
  | callEvent i event =>
    obtain ⟨f', d', c, phase, -, rfl⟩ := advanceCall_cases h
    rcases hat with hat | ⟨r, t, hat⟩
    · obtain ⟨d₀, hpc, hid, hdec, hgroup, hcalls⟩ := advanceCall_calls h hat
      rw [runs_setPc] at hat
      cases hat
      exact .called d₀ hpc rfl hid hdec hgroup hcalls
    · rw [runs_setPc] at hat
      cases hat
  | resume now =>
    obtain ⟨f', d', reply, hpc, hreply, rfl, hhandled⟩ := resume_cases h
    cases hhandled with
    | drained r t heq hr hlost hevent =>
      have hans : Answered s (s.handleReply cfg w f' d' now reply) w f' d' reply :=
        handleReply_answered s w f' d' now reply
      rw [heq] at hat hans ⊢
      rcases hat with hat | ⟨r', t', hat⟩ <;> rw [runs_setPc] at hat <;> cases hat
      cases hans with
      | waits r' t' heq' ht =>
        have hpc' := congrArg (fun s : State => s.runs.get? w) heq'
        simp only [runs_setPc] at hpc'
        cases hpc'
        exact .drained reply r t hpc rfl hreply ht hevent
      | checkpoint r' u' t' hash hr' hgroup hc hhash ha hret =>
        exact absurd (.inr ⟨r, t, runs_setPc s w _⟩) (not_atAttempt_of_returned hret)
      | same ids hspec hgoes =>
        exact absurd (.inr ⟨r, t, runs_setPc s w _⟩) (not_atAttempt_of_goesOn hgoes)
    | settled st hattempts hlost hevents hreturned hend =>
      exact absurd hat (not_atAttempt_of_ending hend)
  | drainResume now =>
    obtain ⟨f', d', r, t, hpc, -, hcases⟩ := drainResume_cases h
    obtain ⟨-, -, hend⟩ := hcases (hplain w f' d' r t hpc)
    exact absurd hat (not_atAttempt_of_ending hend)
  | finishRun =>
    exact absurd hat (not_atAttempt_of_returned (.inl (finishRun_cases h).2.1))

theorem runs_foreign (h : step cfg s a = some s') (hseg : a.segmentOf ≠ some w)
    (hrestart : a.isRestart = false) :
    s'.runs.get? w = s.runs.get? w ∨ s'.runs.get? w = some .start := by
  cases step_foreign h hseg hrestart with
  | kept hrun => exact .inl hrun.runs
  | submitted hrun => exact .inl hrun.runs
  | admitted hp hproc hpc => exact .inr hpc
  | blocked hp hrun => exact .inl hrun.runs
  | cancelled st hst hrun => exact .inl hrun.runs

/-- **How a step leaves a run at an attempt**: by a segment of the run, or where it was. -/
theorem step_atAttempt (hplain : DrainsPlain s) (h : step cfg s a = some s')
    (hat : AtAttempt s' w f d) : SegmentAt cfg s a s' w f d ∨
      a.segmentOf ≠ some w ∧ a.isRestart = false ∧ s'.runs.get? w = s.runs.get? w := by
  cases hrestart : a.isRestart with
  | true =>
    obtain ⟨now, rfl, rfl⟩ := restart_of_step hrestart h
    exact absurd hat (not_atAttempt_of_returned (.inl rfl))
  | false =>
    by_cases hseg : a.segmentOf = some w
    · exact .inl (segment_atAttempt hplain hseg h hat)
    · rcases runs_foreign h hseg hrestart with he | he
      · exact .inr ⟨hseg, rfl, he⟩
      · rcases hat with hat | ⟨r, t, hat⟩ <;> rw [he] at hat <;> cases hat

/-! ## Attempts of all runs -/

theorem ownAttempt_segment (hs : LedgerInv s) (hseg : a.segmentOf = some v)
    (h : step cfg s a = some s') {id : String} (hown : OwnAttempt s.attempts w id) (hne : w ≠ v) :
    OwnAttempt s'.attempts w id := by
  cases segment_attempts hs.plain hseg h with
  | same hattempts => rwa [hattempts]
  | launched ranking now execId f₀ f p rest ha hchoose hl =>
    obtain ⟨r, hr, hw, hst⟩ := hown
    have hfresh := hs.ledger.getAttempt_nextId v
    rw [← attempts_promoteSpare s f₀] at hr hfresh
    refine ⟨r, ?_, hw, hst⟩
    rw [getAttempt_launched hl, hr]
    rintro rfl
    rw [hr] at hfresh
    cases hfresh
  | settled f d st hat hsettled =>
    exact hown.of_settles hs.ledger (hs.owned v f d hat) hsettled.moves hne

theorem ledger_step (hs : LedgerInv s) (hg : ReadsBack s a) (h : step cfg s a = some s') :
    Ledger s'.attempts := by
  cases hrestart : a.isRestart with
  | true =>
    obtain ⟨now, rfl, rfl⟩ := restart_of_step hrestart h
    exact (moves_restoreAttempts hg hs.ledger).ledger hs.ledger
  | false =>
    cases hseg : a.segmentOf with
    | none => exact (step_attempts h hseg hrestart).ledger hs.ledger
    | some v =>
      cases segment_attempts hs.plain hseg h with
      | same hattempts =>
        rw [hattempts]
        exact hs.ledger
      | launched ranking now execId f₀ f p rest ha hchoose hl =>
        refine ledger_launched hl ?_
        rw [attempts_promoteSpare]
        exact hs.ledger
      | settled f d st hat hsettled => exact hsettled.moves.ledger hs.ledger

/-- **Every step keeps the invariant, if a restart reads all attempts back.** -/
theorem ledgerInv_step (hs : LedgerInv s) (hg : ReadsBack s a) (h : step cfg s a = some s') :
    LedgerInv s' := by
  refine ⟨step_drainsPlain hs.plain h, ledger_step hs hg h, fun w f d hat => ?_⟩
  rcases step_atAttempt hs.plain h hat with hat | ⟨hseg, hrestart, hruns⟩
  · cases hat with
    | placed ranking now execId f₀ p rest ha hpc hchoose hrec hat =>
      obtain ⟨-, -, hid, hattempts⟩ := hrec.of_dispatch hat
      rw [hid]
      exact ownAttempt_running hattempts
    | called d₀ hpc heq hid =>
      rw [heq, hid]
      exact hs.owned w f d₀ (.inl hpc)
    | drained reply r t hpc heq =>
      rw [heq]
      exact hs.owned w f d (.inl hpc)
  · -- the run of `w` is where it was, and nobody else settles its attempt
    have hown := hs.owned w f d ((atAttempt_congr hruns).1 hat)
    cases hv : a.segmentOf with
    | none => exact hown.of_loses (step_attempts h hv hrestart)
    | some v => exact ownAttempt_segment hs hv h hown fun he => hseg (he ▸ hv)

end Aidars.Orchestrator
