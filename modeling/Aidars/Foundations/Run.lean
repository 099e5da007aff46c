import Mathlib.Data.List.Induction
import Mathlib.Tactic.Common

/-!
# Runs of a step function

A transition system is a partial step function `step : σ → α → Option σ`: an action that is not
enabled gives `none`. `run` follows a list of actions, and `Along P s as` says that every step
taken along a run is enabled and meets `P`, a condition on the state before it and its action.

The rules are the ones safety proofs need: an invariant kept by every step that meets a condition
holds at the end of such a run (`Along.invariant`), what a step does in a state with the invariant
is done by every step of such a run (`Along.imp`), and two conditions that agree as long as the
invariant holds agree along whole runs (`along_iff`).
-/

namespace Aidars

variable {σ α : Type*} (step : σ → α → Option σ)

/-- The state after a list of actions. -/
def runFrom : σ → List α → Option σ
  | s, [] => some s
  | s, a :: as => (step s a).bind fun s' => runFrom s' as

/-- Every step along the run is enabled and meets `P`. -/
def Along (P : σ → α → Prop) : σ → List α → Prop
  | _, [] => True
  | s, a :: as => P s a ∧ ∃ s', step s a = some s' ∧ Along P s' as

/-- A decidable condition is checked along a run by following it. -/
instance decidableAlong (P : σ → α → Prop) [∀ s a, Decidable (P s a)] :
    ∀ s as, Decidable (Along step P s as)
  | _, [] => .isTrue trivial
  | s, a :: as =>
    match h : step s a with
    | none => .isFalse fun hr => by
      obtain ⟨-, s', h', -⟩ := hr
      rw [h] at h'
      cases h'
    | some s' =>
      have := decidableAlong P s' as
      decidable_of_iff (P s a ∧ Along step P s' as) <| by
        rw [Along]
        constructor
        · exact fun hr => ⟨hr.1, s', h, hr.2⟩
        · rintro ⟨hp, s₁, h₁, hr⟩
          obtain rfl := Option.some.inj (h.symm.trans h₁)
          exact ⟨hp, hr⟩

variable {step} {P Q : σ → α → Prop} {Inv : σ → Prop} {s s' : σ} {as bs : List α}

theorem runFrom_cons {a : α} : runFrom step s (a :: as) = some s' ↔
    ∃ s₁, step s a = some s₁ ∧ runFrom step s₁ as = some s' := by
  rw [runFrom, Option.bind_eq_some_iff]

theorem runFrom_append : runFrom step s (as ++ bs) = some s' ↔
    ∃ s₁, runFrom step s as = some s₁ ∧ runFrom step s₁ bs = some s' := by
  induction as generalizing s with
  | nil => simp [runFrom]
  | cons a as ih =>
    rw [List.cons_append, runFrom_cons]
    constructor
    · rintro ⟨s₁, h₁, h₂⟩
      obtain ⟨s₂, h₃, h₄⟩ := ih.1 h₂
      exact ⟨s₂, runFrom_cons.2 ⟨s₁, h₁, h₃⟩, h₄⟩
    · rintro ⟨s₂, h₁, h₂⟩
      obtain ⟨s₁, h₃, h₄⟩ := runFrom_cons.1 h₁
      exact ⟨s₁, h₃, ih.2 ⟨s₂, h₄, h₂⟩⟩

/-- An invariant kept by every step holds at the end of a run. -/
theorem runFrom_invariant (hstep : ∀ s a s', Inv s → step s a = some s' → Inv s') (hs : Inv s)
    (hrun : runFrom step s as = some s') : Inv s' := by
  induction as generalizing s with
  | nil => exact Option.some.inj hrun ▸ hs
  | cons a as ih =>
    obtain ⟨s₁, h₁, h₂⟩ := runFrom_cons.1 hrun
    exact ih (hstep s a s₁ hs h₁) h₂

theorem along_of_run (hrun : runFrom step s as = some s') : Along step (fun _ _ => True) s as := by
  induction as generalizing s with
  | nil => trivial
  | cons a as ih =>
    obtain ⟨s₁, h₁, h₂⟩ := runFrom_cons.1 hrun
    exact ⟨trivial, s₁, h₁, ih h₂⟩

namespace Along

/-- An invariant kept by the steps that meet `P` holds at the end of a run of such steps. -/
theorem invariant (hstep : ∀ s a s', Inv s → P s a → step s a = some s' → Inv s') (hs : Inv s)
    (h : Along step P s as) (hrun : runFrom step s as = some s') : Inv s' := by
  induction as generalizing s with
  | nil => exact Option.some.inj hrun ▸ hs
  | cons a as ih =>
    obtain ⟨hp, s₁, h₁, h₂⟩ := h
    obtain ⟨s₂, h₃, h₄⟩ := runFrom_cons.1 hrun
    obtain rfl := Option.some.inj (h₁.symm.trans h₃)
    exact ih (hstep s a s₁ hs hp h₁) h₂ h₄

/-- What every step does from a state with the invariant is done all along the run. -/
theorem imp (hstep : ∀ s a s', Inv s → P s a → step s a = some s' → Inv s')
    (hQ : ∀ s a s', Inv s → P s a → step s a = some s' → Q s a) (hs : Inv s)
    (h : Along step P s as) : Along step Q s as := by
  induction as generalizing s with
  | nil => trivial
  | cons a as ih =>
    obtain ⟨hp, s₁, h₁, h₂⟩ := h
    exact ⟨hQ s a s₁ hs hp h₁, s₁, h₁, ih (hstep s a s₁ hs hp h₁) h₂⟩

/-- Actions that lower a rank are at most as many as the rank, if the others do not raise it. -/
theorem countP_le (rank : σ → ℕ) (q : α → Bool)
    (hstep : ∀ s a s', Inv s → P s a → step s a = some s' → Inv s')
    (hlt : ∀ s a s', Inv s → P s a → q a = true → step s a = some s' → rank s' < rank s)
    (hle : ∀ s a s', Inv s → P s a → q a = false → step s a = some s' → rank s' ≤ rank s)
    (hs : Inv s) (h : Along step P s as) : as.countP q ≤ rank s := by
  induction as generalizing s with
  | nil => exact Nat.zero_le _
  | cons a as ih =>
    obtain ⟨hp, s₁, h₁, h₂⟩ := h
    have hrest := ih (hstep s a s₁ hs hp h₁) h₂
    rw [List.countP_cons]
    cases hq : q a with
    | true =>
      have := hlt s a s₁ hs hp hq h₁
      simp only [if_true]
      omega
    | false =>
      have := hle s a s₁ hs hp hq h₁
      simp only [Bool.false_eq_true, if_false]
      omega

theorem of_append {s₁ : σ} (h : Along step P s (as ++ bs)) (hrun : runFrom step s as = some s₁) :
    Along step P s as ∧ Along step P s₁ bs := by
  induction as generalizing s with
  | nil => exact ⟨trivial, Option.some.inj hrun ▸ h⟩
  | cons a as ih =>
    obtain ⟨hp, s₂, h₂, h₃⟩ := h
    obtain ⟨s₃, h₄, h₅⟩ := runFrom_cons.1 hrun
    obtain rfl := Option.some.inj (h₂.symm.trans h₄)
    obtain ⟨hfirst, hrest⟩ := ih h₃ h₅
    exact ⟨⟨hp, s₂, h₂, hfirst⟩, hrest⟩

/-- A property of the steps taken and the state they lead to holds along a run if every further step
keeps it. -/
theorem history {H : List α → σ → Prop} {s₀ : σ}
    (hstep : ∀ as s a s', runFrom step s₀ as = some s → H as s → P s a → step s a = some s' →
      H (as ++ [a]) s') (hinit : H [] s₀) (h : Along step P s₀ as)
    (hrun : runFrom step s₀ as = some s) : H as s := by
  induction as using List.reverseRecOn generalizing s with
  | nil => exact Option.some.inj hrun ▸ hinit
  | append_singleton as a ih =>
    obtain ⟨s₁, h₁, h₂⟩ := runFrom_append.1 hrun
    obtain ⟨hfirst, hp, -⟩ := h.of_append h₁
    obtain ⟨s₂, h₃, h₄⟩ := runFrom_cons.1 h₂
    obtain rfl := Option.some.inj h₄
    exact hstep as s₁ a s₂ h₁ (ih hfirst h₁) hp h₃

theorem at_step {a : α} {s₁ : σ} (h : Along step P s (as ++ a :: bs))
    (hrun : runFrom step s as = some s₁) : P s₁ a := by
  induction as generalizing s with
  | nil => exact Option.some.inj hrun ▸ h.1
  | cons b as ih =>
    obtain ⟨-, s₂, h₂, h₃⟩ := h
    obtain ⟨s₃, h₄, h₅⟩ := runFrom_cons.1 hrun
    obtain rfl := Option.some.inj (h₂.symm.trans h₄)
    exact ih h₃ h₅

end Along

/-- Two conditions that agree under an invariant, which they keep, agree along runs. -/
theorem along_iff (hPQ : ∀ s a s', Inv s → step s a = some s' → (P s a ↔ Q s a))
    (hstep : ∀ s a s', Inv s → Q s a → step s a = some s' → Inv s') (hs : Inv s) :
    Along step P s as ↔ Along step Q s as := by
  constructor
  · refine Along.imp (fun s a s' hi hp h => ?_) (fun s a s' hi hp h => (hPQ s a s' hi h).1 hp) hs
    exact hstep s a s' hi ((hPQ s a s' hi h).1 hp) h
  · exact Along.imp hstep (fun s a s' hi hq h => (hPQ s a s' hi h).2 hq) hs

end Aidars
