import Aidars.Foundations.Collections
import Mathlib.Logic.Relation

/-!
# Depth-first validation of a finite graph

A graph is given by its successor lists, `succ : κ → Option (List κ)`: a key without a list is not a
vertex. `visit` follows the successors of a vertex depth first, with the set of vertices that are
being visited and the set of those that are done; it fails at an unknown successor and at one that
is being visited. `validate` visits all vertices in turn. The calls of `visit` within each other are
limited, and a visit fails at the limit.

The vertices that are done are kept with the latest first, so that the successors of each one come
after it (`Ordered`). Hence a graph that is accepted has no cycle (`validate_acyclic`), and every
successor is a vertex (`validate_closed`). In a graph with these properties a visit fails for its
limit alone, and it does so iff there is a chain of that many vertices each of which is not done yet
when the one before it comes to it (`Deep`). This says when a graph is accepted (`validate_ok_iff`).
-/

namespace Aidars.DepthFirst

variable {κ : Type*} [DecidableEq κ]

/-- The vertices that are being visited, and those that are done. -/
structure Marks (κ : Type*) where
  visiting : PySet κ := ∅
  visited : PySet κ := ∅

/-- Why a graph is rejected. -/
inductive Error (κ : Type*)
  | cycle
  | unknown (k : κ)
  | recursion
  deriving DecidableEq

/-- Visit a vertex and all that can be reached from it, with a limit of calls within each other. -/
def visit (succ : κ → Option (List κ)) : ℕ → Marks κ → κ → Except (Error κ) (Marks κ)
  | 0, _, _ => .error .recursion
  | limit + 1, m, k =>
    if k ∈ m.visiting then .error .cycle
    else if k ∈ m.visited then .ok m
    else
      match ((succ k).getD []).foldlM
        (fun m k' => if (succ k').isSome then visit succ limit m k' else .error (.unknown k'))
        { m with visiting := m.visiting.insert k } with
      | .ok m => .ok ⟨m.visiting.erase k, m.visited.insert k⟩
      | .error e => .error e

/-- Visit all vertices. -/
def validate (limit : ℕ) (keys : List κ) (succ : κ → Option (List κ)) :
    Except (Error κ) (Marks κ) :=
  keys.foldlM (visit succ limit) {}

/-! ## Folds that may fail -/

section Folds

universe u

variable {ε α : Type*} {σ τ : Type u} {f : σ → α → Except ε σ} {s s' : σ} {a : α}
  {l : List α} {x : Except ε σ} {g : σ → Except ε τ} {t : τ}

theorem bind_eq_ok : x >>= g = .ok t ↔ ∃ s, x = .ok s ∧ g s = .ok t := by
  cases x with
  | ok s =>
    constructor
    · exact fun h => ⟨s, rfl, h⟩
    · rintro ⟨s', hs, h⟩
      exact Except.ok.inj hs ▸ h
  | error e =>
    constructor
    · nofun
    · rintro ⟨s', hs, -⟩
      cases hs

theorem foldlM_cons_ok : (a :: l).foldlM f s = .ok s' ↔
    ∃ s₁, f s a = .ok s₁ ∧ l.foldlM f s₁ = .ok s' := by
  rw [List.foldlM_cons, bind_eq_ok]

end Folds

/-! ## The order of the vertices that are done -/

variable {succ : κ → Option (List κ)} {m m' : Marks κ} {k k' : κ} {keys l : List κ} {limit : ℕ}

/-- The successors of a vertex. -/
def Edge (succ : κ → Option (List κ)) (k k' : κ) : Prop := k' ∈ (succ k).getD []

/-- The successors of each vertex come after it. -/
def Ordered (succ : κ → Option (List κ)) : List κ → Prop
  | [] => True
  | k :: l => (∀ k', Edge succ k k' → k' ∈ l ∧ (succ k').isSome) ∧ Ordered succ l

theorem Ordered.insert (h : Ordered succ l)
    (hk : ∀ k', Edge succ k k' → k' ∈ l ∧ (succ k').isSome) : Ordered succ (List.insert k l) := by
  by_cases hmem : k ∈ l
  · rwa [List.insert_of_mem hmem]
  · rw [List.insert_of_not_mem hmem]
    exact ⟨hk, h⟩

omit [DecidableEq κ] in
theorem Ordered.edge (h : Ordered succ l) (hk : k ∈ l) (he : Edge succ k k') :
    k' ∈ l ∧ (succ k').isSome := by
  induction l with
  | nil => cases hk
  | cons a l ih =>
    obtain ⟨hhead, htail⟩ := h
    rcases List.mem_cons.1 hk with rfl | hk
    · exact ⟨List.mem_cons_of_mem _ (hhead k' he).1, (hhead k' he).2⟩
    · exact ⟨List.mem_cons_of_mem _ (ih htail hk).1, (ih htail hk).2⟩

theorem Ordered.idxOf_lt (h : Ordered succ l) (hl : l.Nodup) (hk : k ∈ l) (he : Edge succ k k') :
    l.idxOf k < l.idxOf k' := by
  induction l with
  | nil => cases hk
  | cons a l ih =>
    obtain ⟨hhead, htail⟩ := h
    obtain ⟨ha, hl⟩ := List.nodup_cons.1 hl
    by_cases hka : k = a
    · subst hka
      have hne : k ≠ k' := fun hkk => ha (hkk ▸ (hhead k' he).1)
      rw [List.idxOf_cons_self, List.idxOf_cons_ne _ hne]
      exact Nat.succ_pos _
    · have hk : k ∈ l := (List.mem_cons.1 hk).resolve_left hka
      have hne : a ≠ k' := fun hkk => ha (hkk ▸ (htail.edge hk he).1)
      rw [List.idxOf_cons_ne _ (Ne.symm hka), List.idxOf_cons_ne _ hne]
      exact Nat.succ_lt_succ (ih htail hl hk)

/-- **An ordered list of vertices has no cycle.** -/
theorem Ordered.acyclic (h : Ordered succ l) (hl : l.Nodup) (hk : k ∈ l) :
    ¬ Relation.TransGen (Edge succ) k k := by
  have hlt : ∀ k', Relation.TransGen (Edge succ) k k' → k' ∈ l ∧ l.idxOf k < l.idxOf k' := by
    intro k' hpath
    induction hpath with
    | single he => exact ⟨(h.edge hk he).1, h.idxOf_lt hl hk he⟩
    | tail _ he ih => exact ⟨(h.edge ih.1 he).1, Nat.lt_trans ih.2 (h.idxOf_lt hl ih.1 he)⟩
  exact fun hpath => Nat.lt_irrefl _ (hlt k hpath).2

/-! ## What a visit does -/

/-- The marks after a visit of `k`: the vertices being visited are the same, and `k` is done. -/
structure Visited (succ : κ → Option (List κ)) (m m' : Marks κ) : Prop where
  visiting : m'.visiting = m.visiting
  mono : ∀ x ∈ m.visited, x ∈ m'.visited
  ordered : Ordered succ m.visited.toList → Ordered succ m'.visited.toList

omit [DecidableEq κ] in
theorem Visited.trans {m₁ : Marks κ} (h₁ : Visited succ m m₁) (h₂ : Visited succ m₁ m') :
    Visited succ m m' :=
  ⟨h₂.visiting.trans h₁.visiting, fun x hx => h₂.mono x (h₁.mono x hx),
    fun h => h₂.ordered (h₁.ordered h)⟩

omit [DecidableEq κ] in
/-- A list of visits, each of which is as expected. -/
theorem visited_foldlM {f : Marks κ → κ → Except (Error κ) (Marks κ)} {q : κ → Prop}
    (hf : ∀ m k m', f m k = .ok m' → Visited succ m m' ∧ k ∈ m'.visited ∧ q k)
    (h : l.foldlM f m = .ok m') : Visited succ m m' ∧ ∀ k ∈ l, k ∈ m'.visited ∧ q k := by
  induction l generalizing m with
  | nil =>
    obtain rfl : m = m' := Except.ok.inj h
    exact ⟨⟨rfl, fun _ hx => hx, id⟩, nofun⟩
  | cons a l ih =>
    obtain ⟨m₁, h₁, h₂⟩ := foldlM_cons_ok.1 h
    obtain ⟨hv, ha, hq⟩ := hf m a m₁ h₁
    obtain ⟨hv', hl⟩ := ih h₂
    refine ⟨hv.trans hv', fun k hk => ?_⟩
    rcases List.mem_cons.1 hk with rfl | hk
    · exact ⟨hv'.mono k ha, hq⟩
    · exact hl k hk

theorem erase_insert {s : PySet κ} (hk : k ∉ s) : (s.insert k).erase k = s := by
  obtain ⟨l, hl⟩ := s
  have hlist : (List.insert k l).erase k = l := by
    rw [List.insert_of_not_mem hk, List.erase_cons_head]
  simp only [PySet.insert, PySet.erase, hlist]

/-- **A visit keeps the order**, and its vertex is done. -/
theorem visit_visited (h : visit succ limit m k = .ok m') :
    Visited succ m m' ∧ k ∈ m'.visited := by
  induction limit generalizing m m' k with
  | zero => cases h
  | succ limit ih =>
    rw [visit] at h
    split_ifs at h with hvisiting hvisited
    · obtain rfl := Except.ok.inj h
      exact ⟨⟨rfl, fun _ hx => hx, id⟩, hvisited⟩
    · split at h
      · rename_i m₁ hfold
        obtain rfl := Except.ok.inj h
        have hstep : ∀ m k' m',
            (if (succ k').isSome then visit succ limit m k' else .error (.unknown k')) = .ok m' →
            Visited succ m m' ∧ k' ∈ m'.visited ∧ (succ k').isSome := by
          intro m k' m' hk'
          split_ifs at hk' with hsome
          exact ⟨(ih hk').1, (ih hk').2, hsome⟩
        obtain ⟨hv, hdone⟩ := visited_foldlM hstep hfold
        refine ⟨⟨?_, fun x hx => ?_, fun hord => ?_⟩, ?_⟩
        · rw [hv.visiting]
          exact erase_insert hvisiting
        · exact PySet.mem_insert.2 (.inr (hv.mono x hx))
        · exact (hv.ordered hord).insert hdone
        · exact PySet.mem_insert.2 (.inl rfl)
      · cases h

/-- The vertices of a graph that is accepted, in an order in which successors come later. -/
theorem validate_ordered (h : validate limit keys succ = .ok m) :
    Ordered succ m.visited.toList ∧ ∀ k ∈ keys, k ∈ m.visited := by
  have hstep : ∀ m k m', visit succ limit m k = .ok m' →
      Visited succ m m' ∧ k ∈ m'.visited ∧ True :=
    fun m k m' hk => ⟨(visit_visited hk).1, (visit_visited hk).2, trivial⟩
  obtain ⟨hv, hdone⟩ := visited_foldlM hstep h
  exact ⟨hv.ordered trivial, fun k hk => (hdone k hk).1⟩

/-- Every successor in a graph that is accepted is a vertex. -/
theorem validate_closed (h : validate limit keys succ = .ok m) (hk : k ∈ keys)
    (he : Edge succ k k') :
    (succ k').isSome :=
  let ⟨hord, hdone⟩ := validate_ordered h
  (hord.edge (hdone k hk) he).2

/-- **A graph that is accepted has no cycle.** -/
theorem validate_acyclic (h : validate limit keys succ = .ok m) (hk : k ∈ keys) :
    ¬ Relation.TransGen (Edge succ) k k :=
  let ⟨hord, hdone⟩ := validate_ordered h
  hord.acyclic m.visited.nodup (hdone k hk)

/-! ## Graphs that are accepted -/

/-- What can be reached from a vertex, itself included. -/
def Reaches (succ : κ → Option (List κ)) : κ → κ → Prop := Relation.ReflTransGen (Edge succ)

/-- A call for `k` comes to the limit: no call is left, or `k` is not done and the call for one of
its successors comes to it when those before it are done, with all that they reach. -/
inductive Deep (succ : κ → Option (List κ)) : ℕ → (κ → Prop) → κ → Prop
  | zero {done : κ → Prop} {k : κ} : Deep succ 0 done k
  | succ {limit : ℕ} {done : κ → Prop} {k k' : κ} {before after : List κ} : ¬ done k →
      (succ k).getD [] = before ++ k' :: after →
      Deep succ limit (fun x => done x ∨ ∃ b ∈ before, Reaches succ b x) k' →
      Deep succ (limit + 1) done k

/-- A call in a list of calls comes to the limit, the calls before it being done. -/
def DeepIn (succ : κ → Option (List κ)) (limit : ℕ) (done : κ → Prop) (l : List κ) : Prop :=
  ∃ before k after, l = before ++ k :: after ∧
    Deep succ limit (fun x => done x ∨ ∃ b ∈ before, Reaches succ b x) k

omit [DecidableEq κ] in
theorem deepIn_cons {done : κ → Prop} : DeepIn succ limit done (k :: l) ↔
    Deep succ limit done k ∨ DeepIn succ limit (fun x => done x ∨ Reaches succ k x) l := by
  constructor
  · rintro ⟨_ | ⟨b, before⟩, k', after, h, hdeep⟩
    · obtain ⟨rfl, -⟩ := List.cons.inj h
      exact .inl (by simpa using hdeep)
    · obtain ⟨rfl, rfl⟩ := List.cons.inj h
      exact .inr ⟨before, k', after, rfl, by simpa [or_assoc] using hdeep⟩
  · rintro (hdeep | ⟨before, k', after, rfl, hdeep⟩)
    · exact ⟨[], k, l, rfl, by simpa using hdeep⟩
    · exact ⟨k :: before, k', after, rfl, by simpa [or_assoc] using hdeep⟩

omit [DecidableEq κ] in
theorem deep_succ_iff {done : κ → Prop} (h : ¬ done k) :
    Deep succ (limit + 1) done k ↔ DeepIn succ limit done ((succ k).getD []) := by
  constructor
  · rintro (_ | ⟨-, hsucc, hdeep⟩)
    exact ⟨_, _, _, hsucc, hdeep⟩
  · rintro ⟨before, k', after, hsucc, hdeep⟩
    exact .succ h hsucc hdeep

/-- The marks after calls for the vertices of a list: the same vertices are being visited, and what
the list reaches is done. -/
structure Completes (succ : κ → Option (List κ)) (m m' : Marks κ) (l : List κ) : Prop where
  visiting : m'.visiting = m.visiting
  visited : ∀ x, x ∈ m'.visited ↔ x ∈ m.visited ∨ ∃ b ∈ l, Reaches succ b x

/-- Calls that end with the marks for a list, or fail if one of them comes to the limit. -/
def Ends (succ : κ → Option (List κ)) (x : Except (Error κ) (Marks κ)) (m : Marks κ) (l : List κ)
    (deep : Prop) : Prop :=
  (deep ∧ ∃ e, x = .error e) ∨ ¬ deep ∧ ∃ m', x = .ok m' ∧ Completes succ m m' l

/-- The successors of what is done are done. -/
def DownClosed (succ : κ → Option (List κ)) (m : Marks κ) : Prop :=
  ∀ x ∈ m.visited, ∀ y, Reaches succ x y → y ∈ m.visited

omit [DecidableEq κ] in
theorem Completes.downClosed {m m' : Marks κ} (h : Completes succ m m' l)
    (hm : DownClosed succ m) : DownClosed succ m' := by
  intro x hx y hxy
  rw [h.visited] at hx ⊢
  rcases hx with hx | ⟨b, hb, hbx⟩
  · exact .inl (hm x hx y hxy)
  · exact .inr ⟨b, hb, hbx.trans hxy⟩

omit [DecidableEq κ] in
theorem ends_foldlM {f : Marks κ → κ → Except (Error κ) (Marks κ)} (hm : DownClosed succ m)
    (hf : ∀ m₁ : Marks κ, m₁.visiting = m.visiting → DownClosed succ m₁ → ∀ k ∈ l,
      Ends succ (f m₁ k) m₁ [k] (Deep succ limit (· ∈ m₁.visited) k)) :
    Ends succ (l.foldlM f m) m l (DeepIn succ limit (· ∈ m.visited) l) := by
  induction l generalizing m with
  | nil =>
    refine .inr ⟨?_, m, rfl, rfl, fun x => by simp⟩
    rintro ⟨before, k, after, h, -⟩
    exact List.append_ne_nil_of_right_ne_nil before (List.cons_ne_nil k after) h.symm
  | cons a l ih =>
    unfold Ends
    rw [deepIn_cons]
    rcases hf m rfl hm a List.mem_cons_self with ⟨hdeep, e, he⟩ | ⟨hdeep, m₁, hm₁, hdone⟩
    · exact .inl ⟨.inl hdeep, e, by rw [List.foldlM_cons, he]; rfl⟩
    have hrest := ih (hdone.downClosed hm) fun m₂ hm₂ hclosed k hk =>
      hf m₂ (hm₂.trans hdone.visiting) hclosed k (List.mem_cons_of_mem a hk)
    have hsame : (· ∈ m₁.visited) = fun x => x ∈ m.visited ∨ Reaches succ a x := by
      funext x
      simpa using hdone.visited x
    have hfold : (a :: l).foldlM f m = l.foldlM f m₁ := by
      rw [List.foldlM_cons, hm₁]
      rfl
    rw [hsame] at hrest
    rw [hfold]
    refine hrest.imp (And.imp_left .inr) ?_
    rintro ⟨hnot, m', hm', hall⟩
    refine ⟨not_or.2 ⟨hdeep, hnot⟩, m', hm', hall.visiting.trans hdone.visiting, fun x => ?_⟩
    rw [hall.visited, hdone.visited]
    simp [or_assoc]

/-- **A visit of a graph that is closed and has no cycle** does what it should or comes to the
limit. -/
theorem ends_visit (hclosed : ∀ k k', Edge succ k k' → (succ k').isSome)
    (hacyclic : ∀ k, ¬ Relation.TransGen (Edge succ) k k) (hm : DownClosed succ m)
    (hpath : ∀ v ∈ m.visiting, Relation.TransGen (Edge succ) v k) :
    Ends succ (visit succ limit m k) m [k] (Deep succ limit (· ∈ m.visited) k) := by
  induction limit generalizing m k with
  | zero => exact .inl ⟨.zero, _, rfl⟩
  | succ limit ih =>
    have hvisiting : k ∉ m.visiting := fun hk => hacyclic k (hpath k hk)
    rw [visit, if_neg hvisiting]
    split_ifs with hvisited
    · refine .inr ⟨?_, m, rfl, rfl, fun x => ?_⟩
      · rintro (_ | ⟨hnot, -, -⟩)
        exact hnot hvisited
      · constructor
        · exact .inl
        · rintro (hx | ⟨b, hb, hx⟩)
          · exact hx
          · obtain rfl := List.mem_singleton.1 hb
            exact hm _ hvisited x hx
    have hcalls : Ends succ (((succ k).getD []).foldlM
        (fun m k' => if (succ k').isSome then visit succ limit m k' else .error (.unknown k'))
        { m with visiting := m.visiting.insert k }) { m with visiting := m.visiting.insert k }
        ((succ k).getD []) (DeepIn succ limit (· ∈ m.visited) ((succ k).getD [])) := by
      refine ends_foldlM (m := { m with visiting := m.visiting.insert k }) hm
        fun m₁ hm₁ hclosed₁ k' hk' => ?_
      rw [if_pos (hclosed k k' hk')]
      refine ih hclosed₁ fun v hv => ?_
      rw [hm₁] at hv
      -- a vertex being visited reaches `k`, and so its successor
      rcases PySet.mem_insert.1 hv with rfl | hv
      · exact .single hk'
      · exact (hpath v hv).tail hk'
    unfold Ends
    rw [deep_succ_iff hvisited]
    rcases hcalls with ⟨hdeep, e, he⟩ | ⟨hdeep, m', hm', hdone⟩
    · exact .inl ⟨hdeep, e, by rw [he]⟩
    · refine .inr ⟨hdeep, _, by rw [hm'], ?_, fun x => ?_⟩
      · dsimp only
        rw [hdone.visiting]
        exact erase_insert hvisiting
      · dsimp only
        rw [PySet.mem_insert, hdone.visited, or_left_comm]
        refine or_congr_right ?_
        constructor
        · rintro (rfl | ⟨b, hb, hx⟩)
          · exact ⟨_, List.mem_singleton_self _, .refl⟩
          · exact ⟨k, List.mem_singleton_self k, .head hb hx⟩
        · rintro ⟨b, hb, hx⟩
          obtain rfl := List.mem_singleton.1 hb
          rcases Relation.ReflTransGen.cases_head hx with rfl | ⟨c, hc, hx⟩
          · exact .inl rfl
          · exact .inr ⟨c, hc, hx⟩

/-- **A graph is accepted exactly when every successor is a vertex, it has no cycle, and no call
comes to the limit.** -/
theorem validate_ok_iff (hkeys : ∀ k, (succ k).isSome ↔ k ∈ keys) :
    (∃ m, validate limit keys succ = .ok m) ↔
      ((∀ k k', Edge succ k k' → (succ k').isSome) ∧
        ∀ k, ¬ Relation.TransGen (Edge succ) k k) ∧
      ¬ DeepIn succ limit (fun _ => False) keys := by
  have hmem : ∀ k k', Edge succ k k' → k ∈ keys := by
    intro k k' he
    by_contra hnot
    have hnone : succ k = none := Option.not_isSome_iff_eq_none.1 fun h => hnot ((hkeys k).1 h)
    rw [Edge, hnone] at he
    cases he
  have hends : ∀ (_ : ∀ k k', Edge succ k k' → (succ k').isSome)
      (_ : ∀ k, ¬ Relation.TransGen (Edge succ) k k), Ends succ (validate limit keys succ) {} keys
        (DeepIn succ limit (fun _ => False) keys) := by
    intro hclosed hacyclic
    have hnone : (· ∈ ({} : Marks κ).visited) = fun _ => False := by
      funext x
      exact eq_false (PySet.notMem_empty x)
    have hrun := ends_foldlM (l := keys) (m := {}) (f := visit succ limit)
      (fun x hx => absurd hx (PySet.notMem_empty x)) fun m₁ hm₁ hdone k _ =>
        ends_visit hclosed hacyclic hdone fun v hv => by
          rw [hm₁] at hv
          exact absurd hv (PySet.notMem_empty v)
    rwa [hnone] at hrun
  constructor
  · rintro ⟨m, hm⟩
    have hclosed : ∀ k k', Edge succ k k' → (succ k').isSome := fun k k' he =>
      validate_closed hm (hmem k k' he) he
    have hacyclic : ∀ k, ¬ Relation.TransGen (Edge succ) k k := fun k hpath => by
      obtain ⟨k', he, -⟩ := Relation.TransGen.head'_iff.1 hpath
      exact validate_acyclic hm (hmem k k' he) hpath
    refine ⟨⟨hclosed, hacyclic⟩, ?_⟩
    rcases hends hclosed hacyclic with ⟨-, e, he⟩ | ⟨hdeep, -⟩
    · rw [hm] at he
      cases he
    · exact hdeep
  · rintro ⟨⟨hclosed, hacyclic⟩, hdeep⟩
    rcases hends hclosed hacyclic with ⟨hdeep', -⟩ | ⟨-, m, hm, -⟩
    · exact absurd hdeep' hdeep
    · exact ⟨m, hm⟩

end Aidars.DepthFirst
