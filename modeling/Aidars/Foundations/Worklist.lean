import Aidars.Foundations.Collections
import Mathlib.Data.Finset.Card
import Mathlib.Logic.Relation

/-!
# Searching a graph with a queue

`search` takes vertices from the front of a queue, passes over those that it has visited and those
that are to be skipped, and puts the successors of the others at the end. The successors of all
vertices are in a finite list, so that the search ends whatever cycles there are.

What it visits is what can be reached (`mem_search`).
-/

namespace Aidars.Worklist

/-- A graph with finitely many successors in all. -/
structure Graph (α : Type*) where
  adj : α → List α
  targets : List α
  adj_subset : ∀ a, adj a ⊆ targets

variable {α : Type*} [DecidableEq α] (G : Graph α) (skip : α → Prop) [DecidablePred skip]

/-- What may still be visited. -/
def unseen (queue : List α) (visited : PySet α) : Finset α :=
  (G.targets ++ queue).toFinset.filter (· ∉ visited)

variable {G} in
theorem unseen_subset {queue queue' : List α} {visited visited' : PySet α}
    (hqueue : queue' ⊆ G.targets ++ queue) (hvisited : ∀ a ∈ visited, a ∈ visited') :
    unseen G queue' visited' ⊆ unseen G queue visited := by
  intro a ha
  simp only [unseen, Finset.mem_filter, List.mem_toFinset, List.mem_append] at ha ⊢
  obtain ⟨ha, hnew⟩ := ha
  refine ⟨?_, fun h => hnew (hvisited a h)⟩
  rcases ha with ha | ha
  · exact .inl ha
  · exact List.mem_append.mp (hqueue ha)

/-- The successors of a vertex that are not visited. -/
def fresh (visited : PySet α) (a : α) : List α := (G.adj a).filter (· ∉ visited)

variable {G} in
@[simp] theorem mem_fresh {visited : PySet α} {a b : α} :
    b ∈ fresh G visited a ↔ b ∈ G.adj a ∧ b ∉ visited := by
  simp [fresh]

/-- Visit what is in the queue and all that can be reached from it. -/
def search : List α → PySet α → PySet α
  | [], visited => visited
  | x :: queue, visited =>
    if skip x ∨ x ∈ visited then search queue visited
    else search (queue ++ fresh G (visited.insert x) x) (visited.insert x)
termination_by queue visited => ((unseen G queue visited).card, queue.length)
decreasing_by
  · have hsub : unseen G queue visited ⊆ unseen G (x :: queue) visited :=
      unseen_subset (fun a ha => by simp [ha]) fun a ha => ha
    rcases (Finset.card_le_card hsub).lt_or_eq with hlt | heq
    · exact .left _ _ hlt
    · rw [heq]
      exact .right _ (Nat.lt_succ_self _)
  · rename_i hnew
    refine .left _ _ (Finset.card_lt_card ⟨unseen_subset ?_ fun a ha => by simp [ha], ?_⟩)
    · intro a ha
      simp only [List.mem_append, mem_fresh, List.mem_cons] at ha ⊢
      rcases ha with ha | ⟨ha, -⟩
      · exact .inr (.inr ha)
      · exact .inl (G.adj_subset x ha)
    · intro hsub
      have hx : x ∈ unseen G (x :: queue) visited := by
        simp [unseen, (not_or.mp hnew).2]
      simpa [unseen] using hsub hx

/-- A step to a successor that is not skipped. -/
def Leads (a b : α) : Prop := b ∈ G.adj a ∧ ¬ skip b

variable {G skip}

theorem mem_search_of_mem {queue : List α} {visited : PySet α} {a : α}
    (h : a ∈ visited) : a ∈ search G skip queue visited := by
  induction queue, visited using search.induct G skip with
  | case1 visited => simpa [search] using h
  | case2 x queue visited hx ih =>
    rw [search, if_pos hx]
    exact ih h
  | case3 x queue visited hx ih =>
    rw [search, if_neg hx]
    exact ih (PySet.mem_insert.mpr (.inr h))

/-- What the search visits can be reached from the queue. -/
theorem search_sound {queue : List α} {visited : PySet α} {a : α}
    (h : a ∈ search G skip queue visited) :
    a ∈ visited ∨ ∃ q ∈ queue, ¬ skip q ∧ Relation.ReflTransGen (Leads G skip) q a := by
  induction queue, visited using search.induct G skip with
  | case1 visited => exact .inl (by simpa [search] using h)
  | case2 x queue visited hx ih =>
    rw [search, if_pos hx] at h
    exact (ih h).imp_right fun ⟨q, hq, hrest⟩ => ⟨q, List.mem_cons_of_mem x hq, hrest⟩
  | case3 x queue visited hx ih =>
    rw [search, if_neg hx] at h
    obtain ⟨hskip, -⟩ := not_or.mp hx
    rcases ih h with ha | ⟨q, hq, hqskip, hpath⟩
    · rcases PySet.mem_insert.mp ha with rfl | ha
      · exact .inr ⟨a, List.mem_cons_self, hskip, .refl⟩
      · exact .inl ha
    · rcases List.mem_append.mp hq with hq | hq
      · exact .inr ⟨q, List.mem_cons_of_mem x hq, hqskip, hpath⟩
      · exact .inr ⟨x, List.mem_cons_self, hskip, .head ⟨(mem_fresh.mp hq).1, hqskip⟩ hpath⟩

/-- The successors of what is visited are visited or wait in the queue. -/
def Covered (G : Graph α) (skip : α → Prop) (queue : List α) (visited : PySet α) : Prop :=
  ∀ a ∈ visited, ∀ b, Leads G skip a b → b ∈ visited ∨ b ∈ queue

theorem search_complete {queue : List α} {visited : PySet α}
    (hcov : Covered G skip queue visited) :
    (∀ q ∈ queue, ¬ skip q → q ∈ search G skip queue visited) ∧
      Covered G skip [] (search G skip queue visited) := by
  induction queue, visited using search.induct G skip with
  | case1 visited => simpa [search] using hcov
  | case2 x queue visited hx ih =>
    rw [search, if_pos hx]
    have hcov' : Covered G skip queue visited := by
      intro a ha b hb
      rcases hcov a ha b hb with hseen | hqueue
      · exact .inl hseen
      · rcases List.mem_cons.mp hqueue with rfl | hqueue
        · exact .inl (hx.resolve_left hb.2)
        · exact .inr hqueue
    refine ⟨fun q hq hskip => ?_, (ih hcov').2⟩
    rcases List.mem_cons.mp hq with rfl | hq
    · exact mem_search_of_mem (hx.resolve_left hskip)
    · exact (ih hcov').1 q hq hskip
  | case3 x queue visited hx ih =>
    rw [search, if_neg hx]
    have hcov' : Covered G skip (queue ++ fresh G (visited.insert x) x)
        (visited.insert x) := by
      intro a ha b hb
      by_cases hb' : b ∈ visited.insert x
      · exact .inl hb'
      · refine .inr (List.mem_append.mpr ?_)
        rcases PySet.mem_insert.mp ha with rfl | ha
        · exact .inr (mem_fresh.mpr ⟨hb.1, hb'⟩)
        · rcases hcov a ha b hb with hseen | hqueue
          · exact absurd (PySet.mem_insert.mpr (.inr hseen)) hb'
          · rcases List.mem_cons.mp hqueue with rfl | hqueue
            · exact absurd (PySet.mem_insert.mpr (.inl rfl)) hb'
            · exact .inl hqueue
    refine ⟨fun q hq hskip => ?_, (ih hcov').2⟩
    rcases List.mem_cons.mp hq with rfl | hq
    · exact mem_search_of_mem (PySet.mem_insert.mpr (.inl rfl))
    · exact (ih hcov').1 q (List.mem_append_left _ hq) hskip

/-- **The search visits what can be reached.** -/
theorem mem_search {queue : List α} {a : α} :
    a ∈ search G skip queue ∅ ↔
      ∃ q ∈ queue, ¬ skip q ∧ Relation.ReflTransGen (Leads G skip) q a := by
  constructor
  · exact fun h => (search_sound h).resolve_left (PySet.notMem_empty a)
  · rintro ⟨q, hq, hskip, hpath⟩
    have hcov : Covered G skip queue ∅ := fun a ha => absurd ha (PySet.notMem_empty a)
    obtain ⟨hqueue, hclosed⟩ := search_complete hcov
    induction hpath with
    | refl => exact hqueue q hq hskip
    | tail _ hb ih => exact (hclosed _ ih _ hb).resolve_right List.not_mem_nil

end Aidars.Worklist
