import Aidars.Orchestrator.Cancellation
import Aidars.Orchestrator.Ownership

/-!
# Final attempt statuses

An attempt that has succeeded, failed or been lost keeps that status, as long as the answers that
arrive for lost attempts leave them lost (`Reply.KeepsLost`). An attempt can only be lost behind the
back of the run that waits for it, so these answers are the only writers that come late.
-/

namespace Aidars.Orchestrator

open AttemptRegistry (Moves Ledger)

variable {cfg : Config} {s s' : State} {a : Action} {id : String} {r r' : AttemptRecord}

/-- An answer for a lost attempt leaves it lost, the integers of the answer can be saved, and a
restart reads all attempts back. -/
def LeavesLost (cfg : Config) (s : State) : Action → Prop
  | .resume w now => (∀ d ∈ s.dispatchOf w, ∀ reply ∈ s.replyOf cfg w,
      s.isLost d.attemptId = true → reply.KeepsLost s w d) ∧ AnswersFit cfg s (.resume w now)
  | .restart now => ReadsBack s (.restart now)
  | _ => True

instance (s : State) (a : Action) : Decidable (LeavesLost cfg s a) := by
  apply a.casesOn (motive := fun a => Decidable (LeavesLost cfg s a)) <;> intros <;>
    unfold LeavesLost <;> infer_instance

theorem LeavesLost.readsBack (h : LeavesLost cfg s a) : ReadsBack s a := by
  cases a <;> first | exact h | trivial

/-! ## Moves that keep terminal statuses -/

theorem not_active_of_terminal {st : AttemptStatus} (h : st.isTerminal = true) :
    st.isActive = false := by
  revert h
  cases st <;> decide

/-- The status of a terminal attempt is as before. -/
def KeepsFinal (r r' : AttemptRecord) : Prop := r.status.isTerminal = true → r'.status = r.status

theorem keepsFinal_of_loses (hl : Ledger s.attempts) (h : Loses s.attempts r r') :
    KeepsFinal r r' := by
  intro ht
  rcases h with rfl | ⟨hactive, -⟩
  · rfl
  · have hna := not_active_of_terminal ht
    rw [hactive hl] at hna
    cases hna

/-- Settling an attempt keeps terminal statuses if it keeps the attempt lost once it is. -/
theorem keepsFinal_of_settles {w : String} {st : AttemptStatus} (hl : Ledger s.attempts)
    (hown : OwnAttempt s.attempts w id) (hlost : s.isLost id = true → st = .lost)
    (h : Settles s.attempts w id st r r') : KeepsFinal r r' := by
  intro ht
  rcases h with rfl | ⟨hr, hst⟩ | ⟨hother, -⟩
  · rfl
  · obtain ⟨r₁, hr₁, -, hstatus⟩ := hown
    obtain rfl := Option.some.inj (hr.symm.trans hr₁)
    rcases hstatus with hrunning | hlost'
    · rw [hrunning] at ht
      cases ht
    · have hislost : s.isLost id = true := by simp [State.isLost, hr, hlost']
      rw [hst, hlost hislost, hlost']
  · have hna := not_active_of_terminal ht
    rw [(hother hl).2] at hna
    cases hna

theorem keepsFinal_of_restored (h : Restored r r') : KeepsFinal r r' := by
  obtain ⟨r₁, hr₁, rfl⟩ := h
  intro ht
  have hst : r₁.status = r.status := (StateStore.reloadAttempt_some hr₁).2.2.2.1
  have hna : ¬ r₁.status.isActive = true := by
    rw [hst, not_active_of_terminal ht]
    decide
  unfold State.loseInFlight
  rw [if_neg hna, hst]

/-! ## The steps -/

/-- The step keeps the status of every terminal attempt. -/
def KeepsStatuses (s s' : State) : Prop :=
  ∀ id r, s.attempts.getAttempt id = some r → r.status.isTerminal = true →
    ∃ r', s'.attempts.getAttempt id = some r' ∧ r'.status = r.status

theorem KeepsStatuses.of_eq (h : s'.attempts = s.attempts) : KeepsStatuses s s' := by
  intro id r hr _
  exact ⟨r, by rw [h, hr], rfl⟩

theorem KeepsStatuses.of_moves {R : AttemptRecord → AttemptRecord → Prop}
    (h : Moves R s.attempts s'.attempts) (hR : ∀ r r', R r r' → KeepsFinal r r') :
    KeepsStatuses s s' := by
  intro id r hr ht
  obtain ⟨r', hr', hRr, -⟩ := h.record id r hr
  exact ⟨r', hr', hR r r' hRr ht⟩

theorem KeepsStatuses.trans {s₁ : State} (h₁ : KeepsStatuses s s₁) (h₂ : KeepsStatuses s₁ s') :
    KeepsStatuses s s' := by
  intro id r hr ht
  obtain ⟨r₁, hr₁, hst₁⟩ := h₁ id r hr ht
  obtain ⟨r₂, hr₂, hst₂⟩ := h₂ id r₁ hr₁ (hst₁ ▸ ht)
  exact ⟨r₂, hr₂, hst₂.trans hst₁⟩

/-- **A step whose answers leave lost attempts lost keeps terminal statuses.** -/
theorem keepsStatuses_step (hs : LedgerInv s) (hg : LeavesLost cfg s a)
    (h : step cfg s a = some s') : KeepsStatuses s s' := by
  cases hrestart : a.isRestart with
  | true =>
    obtain ⟨now, rfl, rfl⟩ := restart_of_step hrestart h
    exact .of_moves (moves_restoreAttempts hg hs.ledger) fun _ _ => keepsFinal_of_restored
  | false =>
    cases hseg : a.segmentOf with
    | none =>
      exact .of_moves (step_attempts h hseg hrestart) fun _ _ => keepsFinal_of_loses hs.ledger
    | some w =>
      cases segment_of_eq hseg with
      | startRun => exact .of_eq (startRun_cases h).2.1
      | place ranking now execId =>
        obtain ⟨f₀, -, -, ⟨ha, -⟩ | ⟨f', p, rest, -, -, hl⟩⟩ := place_cases h
        · exact .of_eq ha
        · -- the identifier of the new attempt was not in use
          intro id r hr _
          have hfresh := hs.ledger.getAttempt_nextId w
          rw [← attempts_promoteSpare s f₀] at hr hfresh
          refine ⟨r, ?_, rfl⟩
          rw [getAttempt_launched hl, hr]
          rintro rfl
          rw [hr] at hfresh
          cases hfresh
      | callEvent i event =>
        obtain ⟨f', d', c, phase, -, rfl⟩ := advanceCall_cases h
        exact .of_eq rfl
      | resume now =>
        obtain ⟨f, d, reply, hpc, hreply, -, hhandled⟩ := resume_cases h
        cases hhandled with
        | drained r t heq => exact .of_eq (by rw [heq]; rfl)
        | settled st hattempts hlost =>
          have hdispatch : s.dispatchOf w = some d := by simp [State.dispatchOf, hpc]
          have hanswer : s.replyOf cfg w = some reply := by simp [State.replyOf, hpc, hreply]
          have hkeeps : s.isLost d.attemptId = true → st = .lost :=
            fun hl => hlost hl (hg.1 d hdispatch reply hanswer hl)
          exact .of_moves hattempts.moves fun _ _ =>
            keepsFinal_of_settles hs.ledger (hs.owned w f d (.inl hpc)) hkeeps
      | drainResume now =>
        obtain ⟨f, d, r, t, hpc, -, hcases⟩ := drainResume_cases h
        obtain ⟨hattempts, -⟩ := hcases (hs.plain w f d r t hpc)
        exact .of_moves hattempts.moves fun _ _ =>
          keepsFinal_of_settles hs.ledger (hs.owned w f d (.inr ⟨r, t, hpc⟩)) fun _ => rfl
      | finishRun => exact .of_eq (finishRun_cases h).2.2.2.1

theorem keepsStatuses_run {bs : List Action} (hs : LedgerInv s)
    (hbs : Along (step cfg) (LeavesLost cfg) s bs) (hrun : runSteps cfg s bs = some s') :
    KeepsStatuses s s' := by
  induction bs generalizing s with
  | nil =>
    obtain rfl := Option.some.inj hrun
    exact .of_eq rfl
  | cons a bs ih =>
    obtain ⟨hg, s₁, h₁, hrest⟩ := hbs
    obtain ⟨s₂, h₂, hrun⟩ := runFrom_cons.1 hrun
    obtain rfl := Option.some.inj (h₁.symm.trans h₂)
    exact (keepsStatuses_step hs hg h₁).trans (ih (ledgerInv_step hs hg.readsBack h₁) hrest hrun)

end Aidars.Orchestrator
