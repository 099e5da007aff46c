import Mathlib.Data.List.Basic
import Mathlib.Tactic.Common

/-!
# Programs that a crash can stop

A program changes a state in steps that each happen wholly or not at all, and returns or raises. Its
trail is the list of states after its steps: what a crash can leave behind.

`Triple P m Q E C` says that from a state with `P` every state on the trail has `C`, and the last
state has `Q` for the value returned or `E` for the error raised. There is a rule for each way of
making a program. `Keeps I m`, the special case of an invariant, has the rules of its own that most
programs need.
-/

namespace Aidars

/-- What a run of a program leaves: the states after its steps, the last state and the result. -/
structure Outcome (σ ε α : Type*) where
  trail : List σ
  last : σ
  result : Except ε α

/-- A program over states `σ` that returns an `α` or raises an `ε`. -/
def Prog (σ ε α : Type*) := σ → Outcome σ ε α

namespace Prog

variable {σ : Type*} {ε α β : Type}

/-- Return a value. -/
def ret (a : α) : Prog σ ε α := fun s => ⟨[], s, .ok a⟩

/-- Raise an error. -/
def raise (e : ε) : Prog σ ε α := fun s => ⟨[], s, .error e⟩

/-- Return or raise. -/
def lift : Except ε α → Prog σ ε α
  | .ok a => ret a
  | .error e => raise e

/-- Read the state. -/
def read (f : σ → α) : Prog σ ε α := fun s => ⟨[], s, .ok (f s)⟩

/-- Change what no crash can show, and return a value. -/
def quietly (f : σ → α × σ) : Prog σ ε α := fun s => ⟨[], (f s).2, .ok (f s).1⟩

/-- Change the state in one step. -/
def step (f : σ → σ) : Prog σ ε Unit := fun s => ⟨[f s], f s, .ok ()⟩

/-- One program, and the next if it returns. -/
def andThen (m : Prog σ ε α) (k : α → Prog σ ε β) : Prog σ ε β := fun s =>
  match (m s).result with
  | .error e => ⟨(m s).trail, (m s).last, .error e⟩
  | .ok a => ⟨(m s).trail ++ (k a (m s).last).trail, (k a (m s).last).last,
      (k a (m s).last).result⟩

/-- Catch what a program raises. -/
def attempt (m : Prog σ ε α) : Prog σ ε (Except ε α) := fun s =>
  ⟨(m s).trail, (m s).last, .ok (m s).result⟩

/-- Raise an error in case of a condition. -/
def failIf (c : Prop) [Decidable c] (e : ε) : Prog σ ε Unit :=
  if c then raise e else ret ()

instance : Monad (Prog σ ε) where
  pure := ret
  bind := andThen

@[simp] theorem lift_ok_bind (a : α) (k : α → Prog σ ε β) :
    ((lift (.ok a) : Prog σ ε α) >>= k) = k a := rfl

@[simp] theorem lift_error_bind (e : ε) (k : α → Prog σ ε β) :
    ((lift (.error e) : Prog σ ε α) >>= k) = raise e := rfl

/-- The conditions on a returned value and on an error, together. -/
def Ending (Q : α → σ → Prop) (E : ε → σ → Prop) : Except ε α → σ → Prop
  | .ok a => Q a
  | .error e => E e

/-- From a state with `P` the trail has `C`, and the last state has `Q` for the value that is
returned or `E` for the error that is raised. -/
def Triple (P : σ → Prop) (m : Prog σ ε α) (Q : α → σ → Prop) (E : ε → σ → Prop) (C : σ → Prop) :
    Prop :=
  ∀ s, P s → (∀ s' ∈ (m s).trail, C s') ∧ Ending Q E (m s).result (m s).last

variable {P P' C C' I : σ → Prop} {m : Prog σ ε α} {k : α → Prog σ ε β} {Q Q' : α → σ → Prop}
  {R : β → σ → Prop} {E E' : ε → σ → Prop}

/-! ## Rules -/

theorem Triple.consequence (h : Triple P' m Q' E' C') (hP : ∀ s, P s → P' s)
    (hQ : ∀ a s, Q' a s → Q a s) (hE : ∀ e s, E' e s → E e s) (hC : ∀ s, C' s → C s) :
    Triple P m Q E C := by
  intro s hs
  obtain ⟨htrail, hlast⟩ := h s (hP s hs)
  refine ⟨fun s' hs' => hC s' (htrail s' hs'), ?_⟩
  cases hr : (m s).result with
  | ok a =>
    rw [hr] at hlast
    exact hQ a _ hlast
  | error e =>
    rw [hr] at hlast
    exact hE e _ hlast

/-- A triple from every state that has the precondition. -/
theorem triple_of_forall (h : ∀ s, P s → Triple (· = s) m Q E C) : Triple P m Q E C :=
  fun s hs => h s hs s rfl

theorem triple_ret {a : α} (h : ∀ s, P s → Q a s) : Triple P (pure a : Prog σ ε α) Q E C :=
  fun s hs => ⟨by rintro _ ⟨⟩, h s hs⟩

theorem triple_raise {e : ε} (h : ∀ s, P s → E e s) : Triple P (raise e : Prog σ ε α) Q E C :=
  fun s hs => ⟨by rintro _ ⟨⟩, h s hs⟩

theorem triple_lift {r : Except ε α} (hok : ∀ a, r = .ok a → ∀ s, P s → Q a s)
    (herror : ∀ e, r = .error e → ∀ s, P s → E e s) : Triple P (lift r) Q E C := by
  cases r with
  | ok a => exact triple_ret (hok a rfl)
  | error e => exact triple_raise (herror e rfl)

theorem triple_read {f : σ → α} (h : ∀ s, P s → Q (f s) s) :
    Triple P (read f : Prog σ ε α) Q E C :=
  fun s hs => ⟨by rintro _ ⟨⟩, h s hs⟩

theorem triple_quietly {f : σ → α × σ} (h : ∀ s, P s → Q (f s).1 (f s).2) :
    Triple P (quietly f : Prog σ ε α) Q E C :=
  fun s hs => ⟨by rintro _ ⟨⟩, h s hs⟩

theorem triple_step {f : σ → σ} {Q : Unit → σ → Prop} (h : ∀ s, P s → C (f s) ∧ Q () (f s)) :
    Triple P (step f : Prog σ ε Unit) Q E C := by
  intro s hs
  refine ⟨fun s' hs' => ?_, (h s hs).2⟩
  rw [List.mem_singleton.mp hs']
  exact (h s hs).1

theorem triple_failIf {c : Prop} [Decidable c] {e : ε} {Q : Unit → σ → Prop}
    (hok : ¬c → ∀ s, P s → Q () s) (herror : c → ∀ s, P s → E e s) :
    Triple P (failIf c e) Q E C := by
  unfold failIf
  split
  case isTrue hc => exact triple_raise (herror hc)
  case isFalse hc => exact triple_ret (hok hc)

/-- In sequence the first program hands a condition on its value to the second. -/
theorem Triple.bind (hm : Triple P m Q E C) (hk : ∀ a, Triple (Q a) (k a) R E C) :
    Triple P (m >>= k) R E C := by
  intro s hs
  obtain ⟨htrail, hlast⟩ := hm s hs
  change (∀ s' ∈ (andThen m k s).trail, C s') ∧
    Ending R E (andThen m k s).result (andThen m k s).last
  unfold andThen
  cases hr : (m s).result with
  | error e =>
    rw [hr] at hlast
    exact ⟨htrail, hlast⟩
  | ok a =>
    rw [hr] at hlast
    obtain ⟨htrail', hlast'⟩ := hk a _ hlast
    exact ⟨fun s' hs' => (List.mem_append.mp hs').elim (htrail s') (htrail' s'), hlast'⟩

theorem triple_read_bind {f : σ → α} (h : ∀ s, P s → Triple (· = s) (k (f s)) R E C) :
    Triple P (read f >>= k) R E C :=
  fun s hs => h s hs s rfl

/-- What is caught is a value like any other. -/
theorem Triple.attempt {S : Except ε α → σ → Prop}
    (h : Triple P m (fun a => S (.ok a)) (fun e => S (.error e)) C) :
    Triple P (attempt m) S E C := by
  intro s hs
  obtain ⟨htrail, hlast⟩ := h s hs
  refine ⟨htrail, ?_⟩
  change S (m s).result (m s).last
  cases hr : (m s).result with
  | ok a =>
    rw [hr] at hlast
    exact hlast
  | error e =>
    rw [hr] at hlast
    exact hlast

/-- Over a list, a condition on what is still to be done is handed on. -/
theorem triple_foldlM {f : β → α → Prog σ ε β} (J : List α → β → σ → Prop)
    (h : ∀ b x xs, Triple (J (x :: xs) b) (f b x) (J xs) E C) (l : List α) (b : β) :
    Triple (J l b) (l.foldlM f b) (J []) E C := by
  induction l generalizing b with
  | nil => exact triple_ret fun _ hs => hs
  | cons x xs ih =>
    rw [List.foldlM_cons]
    exact (h b x xs).bind ih

/-! ## Invariants -/

/-- The program keeps an invariant at each step. -/
def Keeps (I : σ → Prop) (m : Prog σ ε α) : Prop := Triple I m (fun _ => I) (fun _ => I) I

/-- An invariant that implies the conditions of a larger program. -/
theorem Keeps.triple {J : σ → Prop} (h : Keeps I m) (hIJ : ∀ s, I s → J s) :
    Triple I m (fun _ => I) (fun _ => J) J :=
  Triple.consequence h (fun _ hs => hs) (fun _ _ hs => hs) (fun _ => hIJ) hIJ

theorem keeps_ret (a : α) : Keeps I (pure a : Prog σ ε α) := triple_ret fun _ hs => hs

theorem keeps_raise (e : ε) : Keeps I (raise e : Prog σ ε α) := triple_raise fun _ hs => hs

theorem keeps_lift (r : Except ε α) : Keeps I (lift r : Prog σ ε α) :=
  triple_lift (fun _ _ _ hs => hs) fun _ _ _ hs => hs

theorem keeps_read (f : σ → α) : Keeps I (read f : Prog σ ε α) := triple_read fun _ hs => hs

theorem keeps_quietly {f : σ → α × σ} (h : ∀ s, I s → I (f s).2) :
    Keeps I (quietly f : Prog σ ε α) := triple_quietly h

theorem keeps_step {f : σ → σ} (h : ∀ s, I s → I (f s)) : Keeps I (step f : Prog σ ε Unit) :=
  triple_step fun s hs => ⟨h s hs, h s hs⟩

theorem keeps_failIf (c : Prop) [Decidable c] (e : ε) : Keeps I (failIf c e : Prog σ ε Unit) :=
  triple_failIf (fun _ _ hs => hs) fun _ _ hs => hs

theorem Keeps.bind (hm : Keeps I m) (hk : ∀ a, Keeps I (k a)) : Keeps I (m >>= k) :=
  Triple.bind hm hk

theorem Keeps.attempt (hm : Keeps I m) : Keeps I (attempt m) := Triple.attempt hm

theorem Keeps.foldlM {f : β → α → Prog σ ε β} (h : ∀ b x, Keeps I (f b x)) (l : List α) (b : β) :
    Keeps I (l.foldlM f b) :=
  triple_foldlM (fun _ _ => I) (fun b x _ => h b x) l b

/-- A state that the program leaves, ended or stopped by a crash. -/
def Leaves (m : Prog σ ε α) (s s' : σ) : Prop := s' = s ∨ s' ∈ (m s).trail ∨ s' = (m s).last

/-- A crash at any time leaves a state with the invariant. -/
theorem Keeps.leaves {s s' : σ} (h : Keeps I m) (hs : I s) (hs' : m.Leaves s s') : I s' := by
  obtain ⟨htrail, hlast⟩ := h s hs
  rcases hs' with rfl | hmem | rfl
  · exact hs
  · exact htrail s' hmem
  · cases hr : (m s).result with
    | ok a =>
      rw [hr] at hlast
      exact hlast
    | error e =>
      rw [hr] at hlast
      exact hlast

/-! ## Whole runs -/

/-- The result of a run that no crash stops, and the state after it. -/
def run (m : Prog σ ε α) (s : σ) : Except ε α × σ := ((m s).result, (m s).last)

variable {s s' : σ} {a : α} {e : ε}

@[simp] theorem run_pure : (pure a : Prog σ ε α).run s = (.ok a, s) := rfl

@[simp] theorem run_raise : (raise e : Prog σ ε α).run s = (.error e, s) := rfl

@[simp] theorem run_read_bind (f : σ → α) (k : α → Prog σ ε β) :
    (read f >>= k).run s = (k (f s)).run s := rfl

@[simp] theorem run_step_bind (f : σ → σ) (k : Unit → Prog σ ε α) :
    (step f >>= k).run s = (k ()).run (f s) := rfl

theorem run_failIf_bind {c : Prop} [Decidable c] (hc : ¬c) (k : Unit → Prog σ ε α) :
    (failIf c e >>= k).run s = (k ()).run s := by
  rw [failIf, if_neg hc]
  rfl

theorem run_failIf_bind_of {c : Prop} [Decidable c] (hc : c) (k : Unit → Prog σ ε α) :
    (failIf c e >>= k).run s = (.error e, s) := by
  rw [failIf, if_pos hc]
  rfl

/-- A program that returns is followed by the next. -/
theorem run_bind_ok (h : m.run s = (.ok a, s')) (k : α → Prog σ ε β) :
    (m >>= k).run s = (k a).run s' := by
  change ((andThen m k s).result, (andThen m k s).last) = _
  obtain ⟨hr, rfl⟩ := Prod.mk.inj h
  rw [andThen, hr]
  rfl

theorem run_bind_error (h : m.run s = (.error e, s')) (k : α → Prog σ ε β) :
    (m >>= k).run s = (.error e, s') := by
  change ((andThen m k s).result, (andThen m k s).last) = _
  obtain ⟨hr, rfl⟩ := Prod.mk.inj h
  rw [andThen, hr]

/-- Only what follows the result counts. -/
theorem bind_congr_of_result {k' : α → Prog σ ε β}
    (h : ∀ a, (m s).result = .ok a → k a (m s).last = k' a (m s).last) :
    (m >>= k) s = (m >>= k') s := by
  change andThen m k s = andThen m k' s
  unfold andThen
  cases hr : (m s).result with
  | error e => rfl
  | ok a =>
    dsimp only
    rw [h a hr]

theorem run_attempt (h : m.run s = ((r : Except ε α), s')) : (attempt m).run s = (.ok r, s') := by
  obtain ⟨rfl, rfl⟩ := Prod.mk.inj h
  rfl

/-! ## Items that do not touch each other -/

section Apart

variable {κ γ : Type*} (key : α → κ) (view : σ → κ → γ) (pre bad : α → γ → Prop)
  (good : α → γ → γ → Prop) {f : β → α → Prog σ ε β} {l : List α}

/-- Over a list each item raises or not by what its own key shows, and changes nothing else. The
whole run raises if an item does, and otherwise each item did its own. -/
theorem run_foldlM_apart
    (hbad : ∀ b x s, pre x (view s (key x)) → bad x (view s (key x)) →
      ∃ e s', (f b x).run s = (.error e, s'))
    (hgood : ∀ b x s, pre x (view s (key x)) → ¬bad x (view s (key x)) →
      ∃ b' s', (f b x).run s = (.ok b', s') ∧ good x (view s (key x)) (view s' (key x)) ∧
        ∀ k, k ≠ key x → view s' k = view s k)
    (hnodup : (l.map key).Nodup) (b : β) (s : σ) (hpre : ∀ x ∈ l, pre x (view s (key x))) :
    ((∃ x ∈ l, bad x (view s (key x))) → ∃ e s', (l.foldlM f b).run s = (.error e, s')) ∧
    ((∀ x ∈ l, ¬bad x (view s (key x))) → ∃ b' s', (l.foldlM f b).run s = (.ok b', s') ∧
      (∀ x ∈ l, good x (view s (key x)) (view s' (key x))) ∧
      ∀ k, k ∉ l.map key → view s' k = view s k) := by
  induction l generalizing b s with
  | nil => exact ⟨by simp, fun _ => ⟨b, s, rfl, by simp, fun _ _ => rfl⟩⟩
  | cons x xs ih =>
    obtain ⟨hx, hxs⟩ := List.forall_mem_cons.mp hpre
    obtain ⟨hnot, hnodup'⟩ := List.nodup_cons.mp hnodup
    have hne : ∀ y ∈ xs, key y ≠ key x := by
      intro y hy heq
      have hkey : key y ∈ xs.map key := List.mem_map_of_mem hy
      exact hnot (heq ▸ hkey)
    rw [List.foldlM_cons]
    by_cases hxbad : bad x (view s (key x))
    · obtain ⟨e, s', hrun⟩ := hbad b x s hx hxbad
      refine ⟨fun _ => ⟨e, s', run_bind_error hrun _⟩, fun hnone => ?_⟩
      exact absurd hxbad (hnone x List.mem_cons_self)
    · obtain ⟨b', s', hrun, hown, hothers⟩ := hgood b x s hx hxbad
      have hview : ∀ y ∈ xs, view s' (key y) = view s (key y) :=
        fun y hy => hothers _ (hne y hy)
      obtain ⟨ihbad, ihgood⟩ := ih hnodup' b' s' fun y hy => by
        rw [hview y hy]
        exact hxs y hy
      rw [run_bind_ok hrun]
      constructor
      · rintro ⟨y, hy, hybad⟩
        rcases List.mem_cons.mp hy with rfl | hy
        · exact absurd hybad hxbad
        · apply ihbad
          exact ⟨y, hy, by rwa [hview y hy]⟩
      · intro hnone
        obtain ⟨b'', s'', hrun', howns, hothers'⟩ := ihgood fun y hy => by
          rw [hview y hy]
          exact hnone y (List.mem_cons_of_mem _ hy)
        refine ⟨b'', s'', hrun', fun y hy => ?_, fun k hk => ?_⟩
        · rcases List.mem_cons.mp hy with rfl | hy
          · rw [hothers' _ hnot]
            exact hown
          · have hyown := howns y hy
            rwa [hview y hy] at hyown
        · rw [List.map_cons, List.mem_cons, not_or] at hk
          rw [hothers' k hk.2, hothers k hk.1]

end Apart

/-! ## Parts of the state that a program does not read -/

/-- A change of the state before a run is the same change after it, and the result is the same. -/
def Commutes (φ : σ → σ) (m : Prog σ ε α) : Prop := ∀ s, m.run (φ s) = ((m.run s).1, φ (m.run s).2)

variable {φ : σ → σ}

theorem commutes_ret (a : α) : Commutes φ (pure a : Prog σ ε α) := fun _ => rfl

theorem commutes_raise (e : ε) : Commutes φ (raise e : Prog σ ε α) := fun _ => rfl

theorem commutes_read {f : σ → α} (h : ∀ s, f (φ s) = f s) : Commutes φ (read f : Prog σ ε α) := by
  intro s
  exact Prod.ext (congrArg Except.ok (h s)) rfl

theorem commutes_quietly {f : σ → α × σ} (h : ∀ s, f (φ s) = ((f s).1, φ (f s).2)) :
    Commutes φ (quietly f : Prog σ ε α) := by
  intro s
  change (Except.ok (f (φ s)).1, (f (φ s)).2) = _
  rw [h s]
  rfl

theorem commutes_step {f : σ → σ} (h : ∀ s, f (φ s) = φ (f s)) :
    Commutes φ (step f : Prog σ ε Unit) := by
  intro s
  exact Prod.ext rfl (h s)

theorem commutes_failIf (c : Prop) [Decidable c] (e : ε) :
    Commutes φ (failIf c e : Prog σ ε Unit) := by
  unfold failIf
  split
  · exact commutes_raise e
  · exact commutes_ret ()

theorem commutes_lift (r : Except ε α) : Commutes φ (lift r : Prog σ ε α) := by
  cases r with
  | ok a => exact commutes_ret a
  | error e => exact commutes_raise e

theorem Commutes.bind (hm : Commutes φ m) (hk : ∀ a, Commutes φ (k a)) : Commutes φ (m >>= k) := by
  intro s
  have hs := hm s
  cases hr : m.run s with
  | mk r s' =>
    rw [hr] at hs
    cases r with
    | error e => rw [run_bind_error hs, run_bind_error hr]
    | ok a =>
      rw [run_bind_ok hs, run_bind_ok hr]
      exact hk a s'

theorem Commutes.attempt (hm : Commutes φ m) : Commutes φ (attempt m) := by
  intro s
  rw [run_attempt (hm s), run_attempt rfl]
  rfl

/-- What holds of whole runs, without regard to crashes. -/
theorem triple_of_run (h : ∀ s, P s → Ending Q E (m.run s).1 (m.run s).2) :
    Triple P m Q E (fun _ => True) :=
  fun s hs => ⟨fun _ _ => trivial, h s hs⟩

end Prog

end Aidars
