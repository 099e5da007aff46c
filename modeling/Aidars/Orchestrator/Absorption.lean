import Aidars.Orchestrator.Cancellation

/-!
# Terminal states

A workload that is completed, failed, unschedulable or cancelled keeps its state and its stored
result for the rest of a coordinator run, as long as no run goes past a spent retry budget
(`WithinBudget`) and no cancelled workload is written by its own run (`OutsideWindows`). The
invariant `TerminalInv` says which states a workload can have while its run is at an `await`: none
that is terminal, but for a cancellation. `terminal_absorbing` is the result about whole runs.
-/

namespace Aidars.Orchestrator

variable {cfg : Config} {s s' : State} {w v : String} {a : Action}

instance (reply : Reply) : Decidable reply.IsOther := by
  apply reply.casesOn (motive := fun reply => Decidable reply.IsOther) <;> intros <;>
    unfold Reply.IsOther <;> infer_instance

/-- The step does not handle an exception of another kind with a spent retry budget, after which the
loop would go round once more. -/
def WithinBudget (cfg : Config) (s : State) : Action → Prop
  | .resume w _ => ∀ f ∈ s.frameOf w, ∀ reply ∈ s.replyOf cfg w,
      reply.IsOther → f.attemptsUsed < cfg.maxAttempts
  | _ => True

instance (s : State) (a : Action) : Decidable (WithinBudget cfg s a) := by
  apply a.casesOn (motive := fun a => Decidable (WithinBudget cfg s a)) <;> intros <;>
    unfold WithinBudget <;> infer_instance

/-- The step stays within the retry budget and handles no answer that cannot be saved, and a segment
of the run of a cancelled workload is outside the windows of its cancellation. -/
def SparesTerminal (cfg : Config) (s : State) (a : Action) : Prop :=
  WithinBudget cfg s a ∧ AnswersFit cfg s a ∧ ∀ w ∈ a.segmentOf, s.isCancelled w = true →
    OutsideWindows cfg w s a

instance (s : State) (a : Action) : Decidable (SparesTerminal cfg s a) := by
  unfold SparesTerminal
  infer_instance

/-! ## The invariant -/

/-- The states that a workload can have while its run is at `pc`. -/
def PcOk (st : Option WorkloadState) : Pc → Prop
  | .start => ∀ x, st = some x → x = .submitted ∨ x.isCancelled = true
  | .lockWait _ => Live st
  | .dispatch _ _ => Live st
  | .drainWait _ _ _ _ => Live st
  | .finishing => True

/-- The invariant that carries the absorption of terminal states. -/
structure TerminalInv (s : State) : Prop where
  plain : DrainsPlain s
  processing : RunsProcessing s
  pc : ∀ w pc, s.runs.get? w = some pc → PcOk (s.stateOf w) pc
  cancels : ∀ w ∈ s.cancels, s.isCancelled w = true

theorem eq_cancelled {x : WorkloadState} (hc : x.isCancelled = true) (ht : x.isTerminal = true) :
    x = .cancelled := by
  revert hc ht
  cases x <;> decide

/-- A workload that waits or is cancelled may have any program counter. -/
theorem pcOk_of_open {x : WorkloadState} (h : x = .submitted ∨ x.isCancelled = true) (pc : Pc) :
    PcOk (some x) pc := by
  have hlive : Live (some x) := by
    intro y hy ht
    obtain rfl := Option.some.inj hy
    rcases h with rfl | h
    · cases ht
    · exact eq_cancelled h ht
  cases pc with
  | start =>
    intro y hy
    obtain rfl := Option.some.inj hy
    exact h
  | lockWait f => exact hlive
  | dispatch f d => exact hlive
  | drainWait f d r t => exact hlive
  | finishing => trivial

theorem pcOk_of_returned {pc : Pc} {st : Option WorkloadState} (hr : Returned w s)
    (hpc : s.runs.get? w = some pc) : PcOk st pc := by
  rcases hr with hr | hr
  · rw [hpc] at hr
    cases hr
  · rw [hpc] at hr
    obtain rfl := Option.some.inj hr
    trivial

theorem pcOk_of_ending {s₀ : State} {f : Frame} {spent : Prop} {pc : Pc}
    (hend : Ending cfg s₀ s w f spent) (hspent : ¬ spent) (hlive : Live (s₀.stateOf w))
    (hpc : s.runs.get? w = some pc) : PcOk (s.stateOf w) pc := by
  cases hend with
  | returned hr => exact pcOk_of_returned hr hpc
  | retried f' hf' hused hbudget hl =>
    obtain rfl := Option.some.inj (hpc.symm.trans hf')
    exact hl hlive
  | overran f' hf' hused hs => exact absurd hs hspent

/-! ## The steps keep the invariant -/

theorem not_spent {f : Frame} {d : Dispatch} {reply : Reply} {now : ℚ}
    (hg : WithinBudget cfg s (.resume w now)) (hpc : s.runs.get? w = some (.dispatch f d))
    (hreply : State.dispatchReply cfg f d = some reply) :
    ¬ (reply.IsOther ∧ cfg.maxAttempts ≤ f.attemptsUsed) := by
  rintro ⟨hother, hspent⟩
  have hframe : s.frameOf w = some f := by simp [State.frameOf, hpc]
  have hanswer : s.replyOf cfg w = some reply := by simp [State.replyOf, hpc, hreply]
  have hlt := hg f hframe reply hanswer hother
  omega

theorem pcOk_segment {pc : Pc} (hs : TerminalInv s) (hg : WithinBudget cfg s a)
    (hseg : a.segmentOf = some w) (h : step cfg s a = some s')
    (hpc : s'.runs.get? w = some pc) : PcOk (s'.stateOf w) pc := by
  cases segment_of_eq hseg with
  | startRun =>
    obtain ⟨-, -, -, -, hr | ⟨f, hf, -, -, hlive⟩⟩ := startRun_cases h
    · exact pcOk_of_returned hr hpc
    · obtain rfl := Option.some.inj (hpc.symm.trans hf)
      exact hlive
  | place ranking now execId =>
    obtain ⟨f₀, hf₀, -, ⟨-, hr⟩ | ⟨f, p, rest, -, -, hl⟩⟩ := place_cases h
    · exact pcOk_of_returned hr hpc
    · cases hl with
      | dispatched d hd hid hattempts hlive =>
        obtain rfl := Option.some.inj (hpc.symm.trans hd)
        exact hlive
      | vanished m u hattempts hend =>
        refine pcOk_of_ending hend id ?_ hpc
        have hlive : Live (s.stateOf w) := hs.pc w _ hf₀
        rwa [State.stateOf, (promoteSpare_frame s f₀).1]
  | callEvent i event =>
    obtain ⟨f, d, c, phase, hd, rfl⟩ := advanceCall_cases h
    have hlive : Live (s.stateOf w) := hs.pc w _ hd
    simp only [State.setPc, Dict.get?_set, if_true, Option.some.injEq] at hpc
    rw [← hpc]
    exact hlive
  | resume now =>
    obtain ⟨f, d, reply, hd, hreply, -, hhandled⟩ := resume_cases h
    have hlive : Live (s.stateOf w) := hs.pc w _ hd
    cases hhandled with
    | drained r t heq =>
      rw [heq] at hpc ⊢
      simp only [State.setPc, Dict.get?_set, if_true, Option.some.injEq] at hpc
      rw [← hpc]
      exact hlive
    | settled st hattempts hlost hevents hreturned hend =>
      exact pcOk_of_ending hend (not_spent hg hd hreply) hlive hpc
  | drainResume now =>
    obtain ⟨f, d, r, t, hd, -, hcases⟩ := drainResume_cases h
    have hlive : Live (s.stateOf w) := hs.pc w _ hd
    exact pcOk_of_ending (hcases (hs.plain w f d r t hd)).2.2 id hlive hpc
  | finishRun =>
    rw [(finishRun_cases h).2.1] at hpc
    cases hpc

/-- The program counter of a run after a step of another coroutine. -/
theorem pcOk_foreign {pc : Pc} (hs : TerminalInv s) (hf : Foreign w s a s')
    (hpc : s'.runs.get? w = some pc) : PcOk (s'.stateOf w) pc := by
  have hnew : ∀ st r, s'.outcomeOf w = some (st, r) → (st = .submitted ∨ st.isCancelled = true) →
      PcOk (s'.stateOf w) pc := by
    intro st r ho hst
    rw [stateOf_eq, ho]
    exact pcOk_of_open hst pc
  cases hf with
  | kept hrun hout =>
    rw [hrun.runs] at hpc
    rw [stateOf_eq, hout, ← stateOf_eq]
    exact hs.pc w pc hpc
  | submitted hrun hn hout => exact hnew _ _ hout (.inl rfl)
  | admitted hp hproc hstart hout =>
    obtain ⟨⟨st, r⟩, ho, hst⟩ := Option.map_eq_some_iff.1 ((stateOf_eq s w).symm.trans hp.1)
    exact hnew st r (hout.trans ho) (.inl hst)
  | blocked hp hrun hout =>
    -- a workload that waits has no run
    rw [hrun.runs] at hpc
    exact absurd (hs.processing w (by simp [hpc])) hp.2
  | cancelled st hst hrun hfrom hout =>
    cases ho : s.outcomeOf w with
    | some o => exact hnew st o.2 (by rw [hout, ho]; rfl) (.inr hst)
    | none =>
      rw [hrun.runs] at hpc
      have hkept := hs.pc w pc hpc
      rwa [stateOf_eq, ho, ← ho, ← show s'.outcomeOf w = s.outcomeOf w by rw [hout, ho]; rfl,
        ← stateOf_eq] at hkept

theorem staysCancelled_spared (hs : DrainsPlain s) (hg : SparesTerminal cfg s a)
    (hrestart : a.isRestart = false) (hc : s.isCancelled w = true) (h : step cfg s a = some s') :
    StaysCancelled w s s' := by
  refine staysCancelled_step hs hc ?_ hrestart h
  by_cases hseg : a.segmentOf = some w
  · exact hg.2.2 w hseg hc
  · -- the windows are segments of the run of the workload itself
    cases a with
    | place v ranking now execId =>
      intro he
      exact hseg (by rw [he]; rfl)
    | resume v now =>
      intro he
      exact absurd (by rw [he]; rfl) hseg
    | drainResume v now =>
      intro he
      exact absurd (by rw [he]; rfl) hseg
    | restart now => cases hrestart
    | _ => trivial

/-- **Every step that spares terminal workloads keeps the invariant.** -/
theorem terminalInv_step (hs : TerminalInv s) (hg : SparesTerminal cfg s a)
    (h : step cfg s a = some s') : TerminalInv s' := by
  cases hrestart : a.isRestart with
  | true =>
    obtain ⟨now, rfl, rfl⟩ := restart_of_step hrestart h
    refine ⟨step_drainsPlain hs.plain h, step_runsProcessing hs.processing h,
      fun w pc hpc => ?_, fun w hw => ?_⟩
    · cases hpc
    · cases hw
  | false =>
    refine ⟨step_drainsPlain hs.plain h, step_runsProcessing hs.processing h,
      fun w pc hpc => ?_, fun w hw => ?_⟩
    · by_cases hseg : a.segmentOf = some w
      · exact pcOk_segment hs hg.1 hseg h hpc
      · exact pcOk_foreign hs (step_foreign h hseg hrestart) hpc
    · rcases step_cancels h hw with hold | hnew
      · have hc := hs.cancels w hold
        exact (staysCancelled_spared hs.plain hg hrestart hc h).isCancelled hc
      · exact hnew

theorem terminalInv_init : TerminalInv {} := by
  refine ⟨fun w f d r t hpc => ?_, fun w hw => absurd rfl hw, fun w pc hpc => ?_, fun w hw => ?_⟩
  · cases hpc
  · cases hpc
  · cases hw

/-! ## Absorption -/

/-- The step leaves the state and the stored result of every terminal workload alone. -/
def KeepsTerminal (cfg : Config) (s : State) (a : Action) : Prop :=
  ∀ s', step cfg s a = some s' → ∀ w x, s.stateOf w = some x → x.isTerminal = true →
    s'.outcomeOf w = s.outcomeOf w

/-- A terminal state of a workload whose run is under way is a cancellation. -/
theorem cancelled_of_live {x : WorkloadState} (hlive : Live (s.stateOf w))
    (hx : s.stateOf w = some x) (ht : x.isTerminal = true) : s.stateOf w = some .cancelled := by
  rw [hx, hlive x hx ht]

/-- **Every step that spares terminal workloads leaves them alone.** -/
theorem keepsTerminal_step (hs : TerminalInv s) (hg : SparesTerminal cfg s a)
    (hrestart : a.isRestart = false) : KeepsTerminal cfg s a := by
  intro s' h w x hx ht
  have hcancelled : s.stateOf w = some .cancelled → s'.outcomeOf w = s.outcomeOf w := by
    intro hc
    have hc' : s.isCancelled w = true := isCancelled_iff.2 (.inr hc)
    exact (staysCancelled_spared hs.plain hg hrestart hc' h).outcomeOf_eq hc
  by_cases hseg : a.segmentOf = some w
  · cases segment_of_eq hseg with
    | startRun =>
      rcases hs.pc w _ (startRun_cases h).1 x hx with rfl | hc
      · cases ht
      · refine hcancelled ?_
        rw [hx, eq_cancelled hc ht]
    | place ranking now execId =>
      obtain ⟨f₀, hf₀, -⟩ := place_cases h
      exact hcancelled (cancelled_of_live (hs.pc w _ hf₀) hx ht)
    | callEvent i event =>
      obtain ⟨f, d, c, phase, -, rfl⟩ := advanceCall_cases h
      rfl
    | resume now =>
      obtain ⟨f, d, reply, hd, -⟩ := resume_cases h
      exact hcancelled (cancelled_of_live (hs.pc w _ hd) hx ht)
    | drainResume now =>
      obtain ⟨f, d, r, t, hd, -⟩ := drainResume_cases h
      exact hcancelled (cancelled_of_live (hs.pc w _ hd) hx ht)
    | finishRun =>
      rw [State.outcomeOf, (finishRun_cases h).2.2.1]
      rfl
  · cases step_foreign h hseg hrestart with
    | kept hrun hout => exact hout
    | submitted hrun hn hout =>
      rw [stateOf_eq, hn] at hx
      cases hx
    | admitted hp hproc hpc hout => exact hout
    | blocked hp hrun hout =>
      rw [hp.1] at hx
      obtain rfl := Option.some.inj hx
      cases ht
    | cancelled st hst hrun hfrom hout =>
      rcases hfrom with ⟨y, hy, hyt⟩ | ⟨-, hmem, -⟩
      · rw [hx] at hy
        obtain rfl := Option.some.inj hy
        rw [ht] at hyt
        cases hyt
      · rcases isCancelled_iff.1 (hs.cancels w hmem) with hc | hc
        · rw [hx] at hc
          obtain rfl := Option.some.inj hc
          cases ht
        · exact hcancelled hc

/-- A run without a restart. -/
def Uninterrupted (bs : List Action) : Prop := ∀ a ∈ bs, a.isRestart = false

theorem outcomeOf_run {bs : List Action} {x : WorkloadState} (hs : TerminalInv s)
    (hbs : Along (step cfg) (SparesTerminal cfg) s bs) (hun : Uninterrupted bs)
    (hrun : runSteps cfg s bs = some s') (hx : s.stateOf w = some x) (ht : x.isTerminal = true) :
    s'.outcomeOf w = s.outcomeOf w := by
  induction bs generalizing s with
  | nil =>
    obtain rfl := Option.some.inj hrun
    rfl
  | cons a bs ih =>
    obtain ⟨hg, s₁, h₁, hrest⟩ := hbs
    obtain ⟨s₂, h₂, hrun⟩ := runFrom_cons.1 hrun
    obtain rfl := Option.some.inj (h₁.symm.trans h₂)
    have hfirst : s₁.outcomeOf w = s.outcomeOf w :=
      keepsTerminal_step hs hg (hun a List.mem_cons_self) s₁ h₁ w x hx ht
    have hx₁ : s₁.stateOf w = some x := by rw [stateOf_eq, hfirst, ← stateOf_eq, hx]
    have hun' : Uninterrupted bs := fun b hb => hun b (List.mem_cons_of_mem a hb)
    exact (ih (terminalInv_step hs hg h₁) hrest hun' hrun hx₁).trans hfirst

end Aidars.Orchestrator
