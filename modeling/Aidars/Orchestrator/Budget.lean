import Aidars.Orchestrator.Absorption
import Aidars.Orchestrator.Ownership

/-!
# The retry budget

`BudgetInv` relates the counter of a run to the attempt ledger: at the placement lock the counter is
one ahead of the attempts used, and while an attempt is dispatched the two agree. As long as no run
goes past a spent budget (`WithinBudget`) and restarts read all attempts back, no workload uses more
attempts than the budget. `rank` counts down with every segment of the loop, so a run returns after
a bounded number of them; and it is never stuck, because the next segment is enabled as soon as
its dispatch has answered (`Progress`).
-/

namespace Aidars.Orchestrator

open AttemptRegistry (Moves Ledger)

variable {cfg : Config} {s s' : State} {w v : String} {a : Action} {f : Frame} {d : Dispatch}

/-- The step stays within the retry budget and handles no answer that cannot be saved, and a restart
reads all attempts back. -/
def KeepsBudget (cfg : Config) (s : State) (a : Action) : Prop :=
  WithinBudget cfg s a ∧ ReadsBack s a ∧ AnswersFit cfg s a

instance (s : State) (a : Action) : Decidable (KeepsBudget cfg s a) := by
  unfold KeepsBudget
  infer_instance

/-! ## Attempts used after a step -/

theorem counted_of_own {r : AttemptRecord} (h : r.status = .running ∨ r.status = .lost) :
    r.counted = true := by
  refine AttemptRegistry.counted_of_status_ne fun hs => ?_
  rw [hs] at h
  rcases h with h | h <;> cases h

theorem counted_of_active {r : AttemptRecord} (h : r.status.isActive = true) :
    r.counted = true := by
  refine AttemptRegistry.counted_of_status_ne fun hs => ?_
  rw [hs] at h
  cases h

/-- Lost attempts count as before. -/
theorem attemptsUsed_loses {reg reg' : AttemptRegistry} (hl : Ledger reg)
    (h : Moves (Loses reg) reg reg') (w : String) : reg'.attemptsUsed w = reg.attemptsUsed w := by
  refine h.attemptsUsed_eq hl fun id r r' _ _ hR => ?_
  rcases hR with rfl | ⟨hactive, hlost⟩
  · rfl
  · rw [counted_of_active (hactive hl),
      AttemptRegistry.counted_of_status_ne (by rw [hlost]; decide)]

theorem attemptsUsed_settles {reg reg' : AttemptRegistry} {id : String} {st : AttemptStatus}
    (hl : Ledger reg) (hown : OwnAttempt reg v id) (h : Moves (Settles reg v id st) reg reg')
    (hst : w ≠ v ∨ st ≠ .succeeded) : reg'.attemptsUsed w = reg.attemptsUsed w := by
  refine h.attemptsUsed_eq hl fun id' r r' _ hw hR => ?_
  by_cases hwv : w = v
  · have hne := hst.resolve_left fun hne => hne hwv
    rcases hR with rfl | ⟨hr, hs⟩ | ⟨hother, hfailed⟩
    · rfl
    · obtain ⟨r₁, hr₁, -, hstatus⟩ := hown
      obtain rfl := Option.some.inj (hr.symm.trans hr₁)
      rw [counted_of_own hstatus, AttemptRegistry.counted_of_status_ne (by rw [hs]; exact hne)]
    · rw [counted_of_active (hother hl).2,
        AttemptRegistry.counted_of_status_ne (by rw [hfailed]; decide)]
  · rw [eq_of_settles hl hown hR (by rw [hw]; exact hwv)]

theorem attemptsUsed_settles_le {reg reg' : AttemptRegistry} {id : String} {st : AttemptStatus}
    (hl : Ledger reg) (hown : OwnAttempt reg v id) (h : Moves (Settles reg v id st) reg reg')
    (w : String) : reg'.attemptsUsed w ≤ reg.attemptsUsed w := by
  refine h.attemptsUsed_le (fun id' r r' _ hR hc => ?_) w
  rcases hR with rfl | ⟨hr, -⟩ | ⟨hother, -⟩
  · exact hc
  · obtain ⟨r₁, hr₁, -, hstatus⟩ := hown
    obtain rfl := Option.some.inj (hr.symm.trans hr₁)
    exact counted_of_own hstatus
  · exact counted_of_active (hother hl).2

theorem attemptsUsed_restored {reg : AttemptRegistry} (hl : Ledger reg)
    (h : ∀ r ∈ reg.attempts.values, (StateStore.reloadAttempt r).isSome = true) (w : String) :
    (State.restoreAttempts reg).attemptsUsed w = reg.attemptsUsed w := by
  refine (moves_restoreAttempts h hl).attemptsUsed_eq hl fun id r r' _ _ hR => ?_
  obtain ⟨r₁, hr₁, rfl⟩ := hR
  obtain ⟨-, -, -, hst, hres⟩ := StateStore.reloadAttempt_some hr₁
  rw [counted_loseInFlight, AttemptRecord.counted, AttemptRecord.counted, hst, hres]

/-- The attempt that a run is at counts. -/
theorem attemptsUsed_pos {reg : AttemptRegistry} {id : String} (hl : Ledger reg)
    (h : OwnAttempt reg w id) : 0 < reg.attemptsUsed w := by
  obtain ⟨r, hr, rfl, hst⟩ := h
  rw [AttemptRegistry.attemptsUsed_eq, List.countP_pos_iff]
  refine ⟨id, (hl.filed id r hr).2, ?_⟩
  rw [hr, Option.any_some, counted_of_own hst]

theorem attemptsUsed_launched {p : PlacementDecision} {g : Option ExecutionGroup}
    (hl : Launched cfg s s' v f p g) (hledger : Ledger s.attempts) (w : String) :
    s'.attempts.attemptsUsed w = s.attempts.attemptsUsed w + if w = v then 1 else 0 := by
  have hold : ∀ u, (s.attempts.idsOf u).countP
        (fun id => (s'.attempts.getAttempt id).any AttemptRecord.counted) =
      s.attempts.attemptsUsed u := by
    intro u
    rw [AttemptRegistry.attemptsUsed_eq]
    refine List.countP_congr fun id hid => ?_
    have hne : id ≠ s.attempts.nextId v := by
      rintro rfl
      exact hledger.nextId_notMem v u hid
    rw [getAttempt_launched hl hne]
  rw [AttemptRegistry.attemptsUsed_eq s'.attempts, idsOf_launched hl]
  split_ifs with hw
  · obtain ⟨r, hr, -, hst⟩ := ownAttempt_launched hl
    rw [List.countP_append, hold v, hw, List.countP_singleton, hr, Option.any_some,
      counted_of_own hst]
    rfl
  · exact hold w

/-! ## Drains -/

/-- An event that is not set belongs to a drain that waits for its checkpoint requests. -/
def UnsetDrains (s : State) : Prop :=
  ∀ id, s.drainEvents.get? id = some false → ∃ ids ∈ s.drains, id ∈ ids

/-- A step other than those of drains leaves the events and the drains alone. -/
theorem step_events (hrestart : a.isRestart = false) (hstart : ∀ x, a ≠ .drainStart x)
    (hfinish : ∀ i, a ≠ .drainFinish i) (hresume : ∀ w now, a ≠ .drainResume w now)
    (h : step cfg s a = some s') :
    s'.drainEvents = s.drainEvents ∧ s'.drains = s.drains := by
  cases hseg : a.segmentOf with
  | some v =>
    refine ⟨?_, (segment_frame h hseg).drains⟩
    cases segment_of_eq hseg with
    | startRun => exact (startRun_cases h).2.2.1
    | place ranking now execId =>
      obtain ⟨f₀, -, he, -⟩ := place_cases h
      exact he
    | callEvent i event =>
      obtain ⟨f', d', c, phase, -, rfl⟩ := advanceCall_cases h
      rfl
    | resume now =>
      obtain ⟨f', d', reply, -, -, -, hhandled⟩ := resume_cases h
      cases hhandled with
      | drained r t heq => rw [heq]; rfl
      | settled st hattempts hlost hevents => exact hevents
    | drainResume now => exact absurd rfl (hresume v now)
    | finishRun => exact (finishRun_cases h).2.2.2.2
  | none =>
    cases a with
    | submitWorkload spec =>
      obtain rfl := Option.some.inj h
      obtain ⟨ht, -⟩ := submitWorkload_cases s spec
      exact ⟨ht.drainEvents, ht.drains⟩
    | createJob job =>
      obtain rfl := Option.some.inj h
      obtain ⟨ht, -⟩ := createJob_cases s job
      exact ⟨ht.drainEvents, ht.drains⟩
    | admissionPass order =>
      obtain ⟨-, -, he, hd, -⟩ := admissionPass_cases h
      exact ⟨he, hd⟩
    | admissionTimeout =>
      obtain rfl := Option.some.inj h
      exact ⟨rfl, rfl⟩
    | cancelStart u =>
      obtain rfl := Option.some.inj h
      rcases cancelStart_cases s u with he | ⟨st, x, -, -, -, -, -, -, he, hd, -⟩
      · rw [he]
        exact ⟨rfl, rfl⟩
      · exact ⟨he, hd⟩
    | cancelFinish u =>
      obtain ⟨-, -, -, -, he, hd, -⟩ := cancelFinish_cases h
      exact ⟨he, hd⟩
    | workerLost x =>
      obtain rfl := Option.some.inj h
      exact ⟨rfl, rfl⟩
    | evictionPass now =>
      obtain rfl := Option.some.inj h
      obtain ⟨-, -, -, -, he, hd⟩ := foldl_handleWorkerLost
        { s with registry := (s.registry.evictExpiredWorkers cfg.registry none now).1 }
        (s.registry.evictExpiredWorkers cfg.registry none now).2
      exact ⟨he, hd⟩
    | drainStart x => exact absurd rfl (hstart x)
    | drainFinish i => exact absurd rfl (hfinish i)
    | registryOp op =>
      obtain rfl := Option.some.inj h
      exact ⟨rfl, rfl⟩
    | steal i => exact ⟨(stealStep_cases h).1.drainEvents, (stealStep_cases h).1.drains⟩
    | clone i now => exact ⟨(cloneStep_cases h).1.drainEvents, (cloneStep_cases h).1.drains⟩
    | restart now => cases hrestart
    | _ => cases hseg

theorem get?_foldl_set (ids : List String) (events : Dict String Bool) (id : String) :
    (ids.foldl (fun events id => events.set id false) events).get? id =
      if id ∈ ids then some false else events.get? id := by
  induction ids generalizing events with
  | nil => simp
  | cons x ids ih =>
    rw [List.foldl_cons, ih]
    by_cases hx : id ∈ ids
    · simp [hx]
    · simp [hx]

theorem get?_foldl_modify (ids : List String) (events : Dict String Bool) (id : String) :
    (ids.foldl (fun events id => events.modify id fun _ => true) events).get? id =
      if id ∈ ids then (events.get? id).map fun _ => true else events.get? id := by
  induction ids generalizing events with
  | nil => simp
  | cons x ids ih =>
    rw [List.foldl_cons, ih, Dict.get?_modify]
    by_cases hx : id = x
    · subst hx
      simp
    · simp [hx]

theorem drainEvents_drainStart (s : State) (x : String) : ∃ ids : List String,
    (∀ id, (s.drainStart x).drainEvents.get? id =
      if id ∈ ids then some false else s.drainEvents.get? id) ∧
    (∀ l ∈ s.drains, l ∈ (s.drainStart x).drains) ∧ (ids = [] ∨ ids ∈ (s.drainStart x).drains) := by
  unfold State.drainStart
  dsimp only
  split_ifs
  · exact ⟨[], by simp, fun l hl => hl, .inl rfl⟩
  · refine ⟨_, fun id => get?_foldl_set _ _ id, fun l hl => List.mem_append_left _ hl, .inr ?_⟩
    exact List.mem_append_right _ List.mem_cons_self

theorem drainFinish_cases {i : ℕ} (h : s.drainFinish i = some s') : ∃ ids, s.drains[i]? = some ids ∧
    s'.drains = s.drains.eraseIdx i ∧ s'.runs = s.runs ∧ ∀ id, s'.drainEvents.get? id =
      if id ∈ ids then (s.drainEvents.get? id).map fun _ => true else s.drainEvents.get? id := by
  obtain ⟨ids, hi, rfl⟩ := Option.map_eq_some_iff.1 h
  exact ⟨ids, hi, rfl, rfl, fun id => get?_foldl_modify ids s.drainEvents id⟩

theorem drainEvents_drainResume {now : ℚ} (hs : DrainsPlain s)
    (h : s.drainResume cfg w now = some s') : ∃ f d r t,
      s.runs.get? w = some (.drainWait f d r t) ∧
      s'.drainEvents = s.drainEvents.erase d.attemptId := by
  obtain ⟨f, d, r, t, hpc, -, hcases⟩ := drainResume_cases h
  exact ⟨f, d, r, t, hpc, (hcases (hs w f d r t hpc)).2.1⟩

/-- Events that are not set belong to drains. -/
theorem unsetDrains_step (hplain : DrainsPlain s) (hs : UnsetDrains s)
    (h : step cfg s a = some s') : UnsetDrains s' := by
  intro id hid
  cases hrestart : a.isRestart with
  | true =>
    obtain ⟨now, rfl, rfl⟩ := restart_of_step hrestart h
    cases hid
  | false =>
    by_cases hstart : ∃ x, a = .drainStart x
    · obtain ⟨x, rfl⟩ := hstart
      obtain rfl := Option.some.inj h
      obtain ⟨ids, hev, hold, hnew⟩ := drainEvents_drainStart s x
      rw [hev] at hid
      split_ifs at hid with hmem
      · rcases hnew with rfl | hnew
        · cases hmem
        · exact ⟨ids, hnew, hmem⟩
      · obtain ⟨l, hl, hmem'⟩ := hs id hid
        exact ⟨l, hold l hl, hmem'⟩
    by_cases hfinish : ∃ i, a = .drainFinish i
    · obtain ⟨i, rfl⟩ := hfinish
      obtain ⟨ids, hi, hd, -, hev⟩ := drainFinish_cases h
      rw [hev] at hid
      split_ifs at hid with hmem
      · obtain ⟨b, -, hb⟩ := Option.map_eq_some_iff.1 hid
        cases hb
      · obtain ⟨l, hl, hmem'⟩ := hs id hid
        refine ⟨l, ?_, hmem'⟩
        -- the drain of another event is another drain
        obtain ⟨j, hj, rfl⟩ := List.mem_iff_getElem.1 hl
        rw [hd]
        refine List.mem_eraseIdx_iff_getElem.2 ⟨j, hj, fun he => ?_, rfl⟩
        subst he
        rw [List.getElem?_eq_getElem hj] at hi
        obtain rfl := Option.some.inj hi
        exact hmem hmem'
    by_cases hresume : ∃ w now, a = .drainResume w now
    · obtain ⟨w, now, rfl⟩ := hresume
      obtain ⟨f, d, r, t, -, he⟩ := drainEvents_drainResume hplain h
      rw [he, Dict.get?_erase] at hid
      split_ifs at hid
      obtain ⟨l, hl, hmem⟩ := hs id hid
      exact ⟨l, (segment_frame h rfl).drains ▸ hl, hmem⟩
    · obtain ⟨he, hd⟩ := step_events hrestart (fun x hx => hstart ⟨x, hx⟩)
        (fun i hi => hfinish ⟨i, hi⟩) (fun w now hw => hresume ⟨w, now, hw⟩) h
      rw [he] at hid
      rw [hd]
      exact hs id hid

/-! ## The invariant -/

/-- The counters of the runs and the attempts used agree, and stay within the budget. -/
structure BudgetInv (cfg : Config) (s : State) : Prop where
  inv : LedgerInv s
  processing : RunsProcessing s
  unset : UnsetDrains s
  used : ∀ w, s.attempts.attemptsUsed w ≤ cfg.maxAttempts
  waiting : ∀ w f, s.runs.get? w = some (.lockWait f) →
    f.attemptsUsed = s.attempts.attemptsUsed w + 1 ∧ f.attemptsUsed ≤ cfg.maxAttempts
  dispatched : ∀ w f d, AtAttempt s w f d → f.attemptsUsed = s.attempts.attemptsUsed w
  events : ∀ w f d r t, s.runs.get? w = some (.drainWait f d r t) →
    (s.drainEvents.get? d.attemptId).isSome = true

/-- The part of the invariant that speaks of the counter of one run. -/
structure CounterOk (cfg : Config) (s : State) (w : String) : Prop where
  used : s.attempts.attemptsUsed w ≤ cfg.maxAttempts
  waiting : ∀ f, s.runs.get? w = some (.lockWait f) →
    f.attemptsUsed = s.attempts.attemptsUsed w + 1 ∧ f.attemptsUsed ≤ cfg.maxAttempts
  dispatched : ∀ f d, AtAttempt s w f d → f.attemptsUsed = s.attempts.attemptsUsed w

namespace CounterOk

theorem of_returned (hu : s.attempts.attemptsUsed w ≤ cfg.maxAttempts) (h : Returned w s) :
    CounterOk cfg s w where
  used := hu
  waiting f hf := by
    rcases h with h | h <;> rw [hf] at h <;> cases h
  dispatched f d hat := absurd hat (not_atAttempt_of_returned h)

theorem of_lockWait {f : Frame} (hpc : s.runs.get? w = some (.lockWait f))
    (hused : f.attemptsUsed = s.attempts.attemptsUsed w + 1)
    (hmax : f.attemptsUsed ≤ cfg.maxAttempts) : CounterOk cfg s w where
  used := by omega
  waiting f' hf' := by
    obtain rfl := Pc.lockWait.inj (Option.some.inj (hpc.symm.trans hf'))
    exact ⟨hused, hmax⟩
  dispatched f' d hat := absurd hat (not_atAttempt_of_lockWait hpc)

theorem of_at {f : Frame} {d : Dispatch} (hat : AtAttempt s w f d)
    (hused : f.attemptsUsed = s.attempts.attemptsUsed w) (hmax : f.attemptsUsed ≤ cfg.maxAttempts) :
    CounterOk cfg s w where
  used := by omega
  waiting f' hf' := absurd hat (not_atAttempt_of_lockWait hf')
  dispatched f' d' hat' := by
    have hframe : s.frameOf w = some f := by
      rcases hat with h | ⟨r, t, h⟩ <;> simp [State.frameOf, h]
    have hframe' : s.frameOf w = some f' := by
      rcases hat' with h | ⟨r, t, h⟩ <;> simp [State.frameOf, h]
    rw [hframe] at hframe'
    obtain rfl := Option.some.inj hframe'
    exact hused

/-- A segment that settles or loses an attempt ends with a good counter. -/
theorem of_ending {s₀ : State} {spent : Prop} (hend : Ending cfg s₀ s w f spent) (hspent : ¬ spent)
    (hu : s.attempts.attemptsUsed w ≤ cfg.maxAttempts)
    (hused : ¬ Returned w s → f.attemptsUsed = s.attempts.attemptsUsed w) : CounterOk cfg s w := by
  cases hend with
  | returned hr => exact of_returned hu hr
  | retried f' hpc hf' hbudget =>
    have hnot : ¬ Returned w s := by
      rintro (hr | hr) <;> rw [hpc] at hr <;> cases hr
    have := hused hnot
    exact of_lockWait hpc (by omega) (by omega)
  | overran f' hpc hf' hs => exact absurd hs hspent

end CounterOk

theorem BudgetInv.counterOk (hs : BudgetInv cfg s) (w : String) : CounterOk cfg s w :=
  ⟨hs.used w, hs.waiting w, hs.dispatched w⟩

theorem attemptsUsed_foreign (hs : LedgerInv s) (hg : ReadsBack s a) (hseg : a.segmentOf ≠ some w)
    (h : step cfg s a = some s') : s'.attempts.attemptsUsed w = s.attempts.attemptsUsed w := by
  cases hrestart : a.isRestart with
  | true =>
    obtain ⟨now, rfl, rfl⟩ := restart_of_step hrestart h
    exact attemptsUsed_restored hs.ledger hg w
  | false =>
    cases hv : a.segmentOf with
    | none => exact attemptsUsed_loses hs.ledger (step_attempts h hv hrestart) w
    | some v =>
      have hne : w ≠ v := fun he => hseg (he ▸ hv)
      cases segment_attempts hs.plain hv h with
      | same hattempts => rw [hattempts]
      | launched ranking now execId f₀ f p rest ha hchoose hl =>
        have hledger : Ledger (s.promoteSpare f₀).1.attempts := by
          rw [attempts_promoteSpare]
          exact hs.ledger
        rw [attemptsUsed_launched hl hledger, if_neg hne, attempts_promoteSpare, Nat.add_zero]
      | settled f d st hat hsettled =>
        exact attemptsUsed_settles hs.ledger (hs.owned v f d hat) hsettled.moves (.inl hne)

theorem counterOk_segment (hmax : 1 ≤ cfg.maxAttempts) (hs : BudgetInv cfg s)
    (hg : WithinBudget cfg s a) (hseg : a.segmentOf = some w) (h : step cfg s a = some s') :
    CounterOk cfg s' w := by
  have hu := hs.used w
  cases segment_of_eq hseg with
  | startRun =>
    obtain ⟨-, ha, -, -, hr | ⟨f, hf, hused, hbudget, -⟩⟩ := startRun_cases h
    · exact .of_returned (by rw [ha]; exact hu) hr
    · exact .of_lockWait hf (by rw [ha]; exact hused) (by omega)
  | place ranking now execId =>
    obtain ⟨f₀, hf₀, -, ⟨ha, hr⟩ | ⟨f, p, rest, hf, -, hl⟩⟩ := place_cases h
    · exact .of_returned (by rw [ha]; exact hu) hr
    · obtain ⟨hwait, hle⟩ := hs.waiting w f₀ hf₀
      have hledger : Ledger (s.promoteSpare f₀).1.attempts := by
        rw [attempts_promoteSpare]
        exact hs.inv.ledger
      have hused := attemptsUsed_launched hl hledger w
      rw [if_pos rfl, attempts_promoteSpare] at hused
      cases hl with
      | dispatched d hpc hid hattempts => exact .of_at (.inl hpc) (by omega) (by omega)
      | vanished m u hattempts hend => exact .of_ending hend id (by omega) fun _ => by omega
  | callEvent i event =>
    obtain ⟨f, d, c, phase, hpc, rfl⟩ := advanceCall_cases h
    have hused : f.attemptsUsed = s.attempts.attemptsUsed w := hs.dispatched w f d (.inl hpc)
    exact .of_at (.inl (runs_setPc s w _)) hused (by omega)
  | resume now =>
    obtain ⟨f, d, reply, hpc, hreply, -, hhandled⟩ := resume_cases h
    have hused : f.attemptsUsed = s.attempts.attemptsUsed w := hs.dispatched w f d (.inl hpc)
    cases hhandled with
    | drained r t heq =>
      have hat : AtAttempt s' w f d := by
        rw [heq]
        exact .inr ⟨r, t, by simp [State.setPc]⟩
      exact .of_at hat (by rw [heq]; exact hused) (by omega)
    | settled st hattempts hlost hevents hreturned hend =>
      have hown := hs.inv.owned w f d (.inl hpc)
      have hle := attemptsUsed_settles_le hs.inv.ledger hown hattempts.moves w
      refine .of_ending hend (not_spent hg hpc hreply) (by omega) fun hnot => ?_
      have hne : st ≠ .succeeded := fun hst => hnot (hreturned hst)
      rw [attemptsUsed_settles hs.inv.ledger hown hattempts.moves (.inr hne)]
      exact hused
  | drainResume now =>
    obtain ⟨f, d, r, t, hpc, -, hcases⟩ := drainResume_cases h
    have hat : AtAttempt s w f d := .inr ⟨r, t, hpc⟩
    obtain ⟨hattempts, -, hend⟩ := hcases (hs.inv.plain w f d r t hpc)
    have heq := attemptsUsed_settles (w := w) hs.inv.ledger (hs.inv.owned w f d hat)
      hattempts.moves (.inr (by decide))
    have hused := hs.dispatched w f d hat
    exact .of_ending hend id (by omega) fun _ => by omega
  | finishRun =>
    obtain ⟨-, hnone, -, ha, -⟩ := finishRun_cases h
    exact .of_returned (by rw [ha]; exact hu) (.inl hnone)

theorem counterOk_step (hmax : 1 ≤ cfg.maxAttempts) (hs : BudgetInv cfg s)
    (hg : KeepsBudget cfg s a) (h : step cfg s a = some s') (w : String) : CounterOk cfg s' w := by
  by_cases hseg : a.segmentOf = some w
  · exact counterOk_segment hmax hs hg.1 hseg h
  · have hused := attemptsUsed_foreign hs.inv hg.2.1 hseg h
    have hu := hs.used w
    have hkept : s'.runs.get? w = s.runs.get? w → CounterOk cfg s' w := by
      intro he
      have hok := hs.counterOk w
      refine ⟨by omega, fun f hf => ?_, fun f d hat => ?_⟩
      · rw [hused]
        exact hok.waiting f (he ▸ hf)
      · rw [hused]
        exact hok.dispatched f d ((atAttempt_congr he).1 hat)
    cases hrestart : a.isRestart with
    | true =>
      obtain ⟨now, rfl, rfl⟩ := restart_of_step hrestart h
      exact .of_returned (by omega) (.inl rfl)
    | false =>
      cases step_foreign h hseg hrestart with
      | kept hrun => exact hkept hrun.runs
      | submitted hrun => exact hkept hrun.runs
      | admitted hp hproc hpc =>
        refine ⟨by omega, fun f hf => ?_, fun f d hat => ?_⟩
        · rw [hpc] at hf
          cases hf
        · rcases hat with hat | ⟨r, t, hat⟩ <;> rw [hpc] at hat <;> cases hat
      | blocked hp hrun => exact hkept hrun.runs
      | cancelled st hst hrun => exact hkept hrun.runs

theorem events_step {r : WorkloadExecutionResult} {t : PySet String} (hs : BudgetInv cfg s)
    (h : step cfg s a = some s') (hpc : s'.runs.get? w = some (.drainWait f d r t)) :
    (s'.drainEvents.get? d.attemptId).isSome = true := by
  rcases step_atAttempt hs.inv.plain h (.inr ⟨r, t, hpc⟩) with hat | ⟨hseg, hrestart, hruns⟩
  · cases hat with
    | placed ranking now execId f₀ p rest ha hpc₀ hchoose hrec hat =>
      rw [hpc] at hat
      cases hat
    | called d₀ hpc₀ heq =>
      rw [heq, runs_setPc] at hpc
      cases hpc
    | drained reply r₁ t₁ hpc₀ heq hreply ht hevent =>
      rw [heq]
      exact hevent
  · have hrun : s.runs.get? w = some (.drainWait f d r t) := hruns ▸ hpc
    have hev := hs.events w f d r t hrun
    by_cases hstart : ∃ x, a = .drainStart x
    · obtain ⟨x, rfl⟩ := hstart
      obtain rfl := Option.some.inj h
      obtain ⟨ids, he, -⟩ := drainEvents_drainStart s x
      rw [he]
      split_ifs
      · rfl
      · exact hev
    by_cases hfinish : ∃ i, a = .drainFinish i
    · obtain ⟨i, rfl⟩ := hfinish
      obtain ⟨ids, -, -, -, he⟩ := drainFinish_cases h
      rw [he]
      split_ifs
      · rwa [Option.isSome_map]
      · exact hev
    by_cases hresume : ∃ v now, a = .drainResume v now
    · -- another run takes the event of its own attempt
      obtain ⟨v, now, rfl⟩ := hresume
      obtain ⟨f', d', r', t', hpc', he⟩ := drainEvents_drainResume hs.inv.plain h
      have hne : d.attemptId ≠ d'.attemptId := by
        intro heq
        obtain ⟨r₁, hr₁, hw₁, -⟩ := hs.inv.owned w f d (.inr ⟨r, t, hrun⟩)
        obtain ⟨r₂, hr₂, hw₂, -⟩ := hs.inv.owned v f' d' (.inr ⟨r', t', hpc'⟩)
        rw [heq] at hr₁
        obtain rfl := Option.some.inj (hr₁.symm.trans hr₂)
        exact hseg (by rw [← hw₁, hw₂]; rfl)
      rw [he, Dict.get?_erase, if_neg hne]
      exact hev
    · obtain ⟨he, -⟩ := step_events hrestart (fun x hx => hstart ⟨x, hx⟩)
        (fun i hi => hfinish ⟨i, hi⟩) (fun v now hv => hresume ⟨v, now, hv⟩) h
      rw [he]
      exact hev

/-- **Every step within the budget keeps the invariant.** -/
theorem budgetInv_step (hmax : 1 ≤ cfg.maxAttempts) (hs : BudgetInv cfg s)
    (hg : KeepsBudget cfg s a) (h : step cfg s a = some s') : BudgetInv cfg s' where
  inv := ledgerInv_step hs.inv hg.2.1 h
  processing := step_runsProcessing hs.processing h
  unset := unsetDrains_step hs.inv.plain hs.unset h
  used w := (counterOk_step hmax hs hg h w).used
  waiting w := (counterOk_step hmax hs hg h w).waiting
  dispatched w := (counterOk_step hmax hs hg h w).dispatched
  events _ _ _ _ _ hpc := events_step hs h hpc

theorem budgetInv_init (cfg : Config) : BudgetInv cfg {} where
  inv := ledgerInv_init
  processing _ hw := absurd rfl hw
  unset _ hid := by cases hid
  used _ := Nat.zero_le _
  waiting _ _ hf := by cases hf
  dispatched w f d hat := by rcases hat with hat | ⟨r, t, hat⟩ <;> cases hat
  events _ _ _ _ _ hpc := by cases hpc

/-! ## Runs return -/

/-- A bound on the segments of the loop that a run has left. -/
def rank (cfg : Config) : Option Pc → ℕ
  | some .start => 3 * cfg.maxAttempts + 1
  | some (.lockWait f) => 3 * (cfg.maxAttempts - f.attemptsUsed) + 3
  | some (.dispatch f _) => 3 * (cfg.maxAttempts - f.attemptsUsed) + 2
  | some (.drainWait f _ _ _) => 3 * (cfg.maxAttempts - f.attemptsUsed) + 1
  | _ => 0

/-- The action is a segment of the loop of `_process_workload`, or its entry. -/
def Action.isLoopSegment (w : String) : Action → Bool
  | .startRun v => v = w
  | .place v _ _ _ => v = w
  | .resume v _ => v = w
  | .drainResume v _ => v = w
  | _ => false

theorem rank_of_returned (h : Returned w s) : rank cfg (s.runs.get? w) = 0 := by
  rcases h with h | h <;> rw [h] <;> rfl

theorem rank_of_ending {s₀ : State} {spent : Prop} (hend : Ending cfg s₀ s w f spent)
    (hspent : ¬ spent) : rank cfg (s.runs.get? w) ≤ 3 * (cfg.maxAttempts - f.attemptsUsed) := by
  cases hend with
  | returned h =>
    rw [rank_of_returned h]
    omega
  | retried f' hpc hused hbudget =>
    rw [hpc, rank]
    omega
  | overran f' hpc hused hs => exact absurd hs hspent

/-- Every segment of the loop counts down. -/
theorem rank_segment (hmax : 1 ≤ cfg.maxAttempts) (hs : BudgetInv cfg s)
    (hg : WithinBudget cfg s a) (ha : a.isLoopSegment w = true) (h : step cfg s a = some s') :
    rank cfg (s'.runs.get? w) < rank cfg (s.runs.get? w) := by
  cases a with
  | startRun v =>
    obtain rfl : v = w := of_decide_eq_true ha
    obtain ⟨hpc, -, -, -, hr | ⟨f, hf, hused, hbudget, -⟩⟩ := startRun_cases h
    · rw [rank_of_returned hr, hpc, rank]
      omega
    · rw [hf, hpc, rank, rank]
      omega
  | place v ranking now execId =>
    obtain rfl : v = w := of_decide_eq_true ha
    obtain ⟨f₀, hf₀, -, ⟨-, hr⟩ | ⟨f, p, rest, hf, -, hl⟩⟩ := place_cases h
    · rw [rank_of_returned hr, hf₀, rank]
      omega
    · rw [hf₀]
      cases hl with
      | dispatched d hpc =>
        rw [hpc, rank, rank]
        omega
      | vanished m u hattempts hend =>
        have := rank_of_ending hend id
        rw [rank]
        omega
  | resume v now =>
    obtain rfl : v = w := of_decide_eq_true ha
    obtain ⟨f, d, reply, hpc, hreply, -, hhandled⟩ := resume_cases h
    rw [hpc]
    cases hhandled with
    | drained r t heq =>
      rw [heq, runs_setPc, rank, rank]
      omega
    | settled st hattempts hlost hevents hreturned hend =>
      have := rank_of_ending hend (not_spent hg hpc hreply)
      rw [rank]
      omega
  | drainResume v now =>
    obtain rfl : v = w := of_decide_eq_true ha
    obtain ⟨f, d, r, t, hpc, -, hcases⟩ := drainResume_cases h
    have := rank_of_ending (hcases (hs.inv.plain v f d r t hpc)).2.2 id
    rw [hpc, rank]
    omega
  | _ => cases ha

theorem rank_step (hs : BudgetInv cfg s) (hrestart : a.isRestart = false)
    (ha : a.isLoopSegment w = false) (hw : ¬ Returned w s) (h : step cfg s a = some s') :
    rank cfg (s'.runs.get? w) = rank cfg (s.runs.get? w) := by
  by_cases hseg : a.segmentOf = some w
  · cases segment_of_eq hseg with
    | callEvent i event =>
      obtain ⟨f, d, c, phase, hpc, rfl⟩ := advanceCall_cases h
      rw [runs_setPc, hpc]
      rfl
    | finishRun =>
      exact absurd (.inr (finishRun_cases h).1) hw
    | startRun =>
      exact absurd ha (by simp [Action.isLoopSegment])
    | place ranking now execId =>
      exact absurd ha (by simp [Action.isLoopSegment])
    | resume now =>
      exact absurd ha (by simp [Action.isLoopSegment])
    | drainResume now =>
      exact absurd ha (by simp [Action.isLoopSegment])
  · cases step_foreign h hseg hrestart with
    | kept hrun => rw [hrun.runs]
    | submitted hrun => rw [hrun.runs]
    | admitted hp =>
      -- a workload that waits for admission has no run
      have hnone : s.runs.get? w = none := by
        by_contra hne
        exact hp.2 (hs.processing w hne)
      exact absurd (.inl hnone) hw
    | blocked hp hrun => rw [hrun.runs]
    | cancelled st hst hrun => rw [hrun.runs]

/-- A step within the budget and within the run of `w`: it has not returned. -/
def DuringRun (cfg : Config) (w : String) (s : State) (a : Action) : Prop :=
  KeepsBudget cfg s a ∧ a.isRestart = false ∧ ¬ Returned w s

theorem countP_loopSegment (hmax : 1 ≤ cfg.maxAttempts) {bs : List Action} (hs : BudgetInv cfg s)
    (h : Along (step cfg) (DuringRun cfg w) s bs) :
    bs.countP (Action.isLoopSegment w) ≤ rank cfg (s.runs.get? w) := by
  refine h.countP_le (fun s => rank cfg (s.runs.get? w)) _ ?_ ?_ ?_ hs
  · exact fun s a s' hi hp hstep => budgetInv_step hmax hi hp.1 hstep
  · exact fun s a s' hi hp ha hstep => rank_segment hmax hi hp.1.1 ha hstep
  · exact fun s a s' hi hp ha hstep => (rank_step hi hp.2.1 ha hp.2.2 hstep).le

/-- The next segment of a run that has not returned is enabled: at once, as soon as its dispatch has
answered, or as soon as the drain that it waits for has finished. -/
def Progress (cfg : Config) (s : State) (w : String) : Pc → Prop
  | .start => (step cfg s (.startRun w)).isSome = true
  | .lockWait _ => ∀ ranking now execId, (step cfg s (.place w ranking now execId)).isSome = true
  | .dispatch f d => (State.dispatchReply cfg f d).isSome = true →
      ∀ now, (step cfg s (.resume w now)).isSome = true
  | .drainWait _ _ _ _ => (∀ now, (step cfg s (.drainResume w now)).isSome = true) ∨
      ∃ i s₁, step cfg s (.drainFinish i) = some s₁ ∧
        ∀ now, (step cfg s₁ (.drainResume w now)).isSome = true
  | .finishing => True

theorem isSome_startRun (h : s.runs.get? w = some .start) : (s.startRun cfg w).isSome = true := by
  unfold State.startRun
  rw [h]
  dsimp only
  split
  · rfl
  · split_ifs
    · rfl
    · split
      · split <;> rfl
      · rfl

theorem isSome_place {ranking : Ranking} {now : ℚ} {execId : String}
    (h : s.runs.get? w = some (.lockWait f)) :
    (s.place cfg w ranking now execId).isSome = true := by
  unfold State.place
  rw [h]
  dsimp only
  split_ifs
  · rfl
  · split <;> rfl

theorem isSome_drainResume {r : WorkloadExecutionResult} {t : PySet String} {now : ℚ}
    (h : s.runs.get? w = some (.drainWait f d r t))
    (hev : s.drainEvents.get? d.attemptId = some true) :
    (s.drainResume cfg w now).isSome = true := by
  unfold State.drainResume
  rw [h]
  dsimp only
  rw [if_pos hev]
  rfl

theorem progress (hs : BudgetInv cfg s) {pc : Pc} (hpc : s.runs.get? w = some pc) :
    Progress cfg s w pc := by
  cases pc with
  | start => exact isSome_startRun hpc
  | lockWait f => exact fun _ _ _ => isSome_place hpc
  | dispatch f d =>
    intro hreply now
    show (s.resume cfg w now).isSome = true
    unfold State.resume
    rw [hpc]
    dsimp only
    rwa [Option.isSome_map]
  | drainWait f d r t =>
    obtain ⟨b, hb⟩ := Option.isSome_iff_exists.1 (hs.events w f d r t hpc)
    cases b with
    | true => exact .inl fun _ => isSome_drainResume hpc hb
    | false =>
      obtain ⟨ids, hids, hmem⟩ := hs.unset d.attemptId hb
      obtain ⟨i, hi, rfl⟩ := List.mem_iff_getElem.1 hids
      have hfin : (s.drainFinish i).isSome = true := by
        unfold State.drainFinish
        rw [List.getElem?_eq_getElem hi]
        rfl
      obtain ⟨s₁, hs₁⟩ := Option.isSome_iff_exists.1 hfin
      obtain ⟨ids', hi', -, hruns, hev⟩ := drainFinish_cases hs₁
      rw [List.getElem?_eq_getElem hi] at hi'
      obtain rfl := Option.some.inj hi'
      refine .inr ⟨i, s₁, hs₁, fun now => isSome_drainResume (hruns ▸ hpc) ?_⟩
      rw [hev, if_pos hmem, hb]
      rfl
  | finishing => trivial

/-! ## Whole runs -/

/-- The step forgets no attempt of the workload. -/
def KeepsLedger (cfg : Config) (w : String) (s : State) (a : Action) : Prop :=
  ∀ s', step cfg s a = some s' → s.attempts.idsOf w <+: s'.attempts.idsOf w

theorem keepsLedger_step (hs : BudgetInv cfg s) (hg : KeepsBudget cfg s a) (w : String) :
    KeepsLedger cfg w s a := by
  intro s' h
  cases hrestart : a.isRestart with
  | true =>
    obtain ⟨now, rfl, rfl⟩ := restart_of_step hrestart h
    exact ((moves_restoreAttempts hg.2.1 hs.inv.ledger).idsOf w).symm ▸ List.prefix_refl _
  | false =>
    by_cases hplace : ∃ v ranking now execId, a = .place v ranking now execId
    · obtain ⟨v, ranking, now, execId, rfl⟩ := hplace
      obtain ⟨f₀, -, -, ⟨ha, -⟩ | ⟨f', p, rest, -, -, hl⟩⟩ := place_cases h
      · rw [ha]
      · rw [idsOf_launched hl, attempts_promoteSpare]
        split_ifs with hw
        · rw [hw]
          exact List.prefix_append _ _
        · exact List.prefix_refl _
    · rw [idsOf_of_not_place hs.inv.plain hrestart
        (fun v r n e he => hplace ⟨v, r, n, e, he⟩) h]

end Aidars.Orchestrator
