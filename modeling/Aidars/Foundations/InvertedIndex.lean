import Aidars.Foundations.Collections

/-!
# Inverted indexes

An inverted index of a relation `R w h` ("`w` holds `h`") is a dictionary from `h` to the set of
its holders with no empty sets in it. `Indexes index R` states this, and `Indexes.add`,
`Indexes.discard` and `Indexes.discardAll` are the effects of the three updates on the relation:
one pair more, one pair less, and all listed pairs of one holder less.
-/

namespace Aidars.InvertedIndex

variable {η ω : Type*} [DecidableEq η]

/-- The holders of `h`. -/
def holders (index : Dict η (PySet ω)) (h : η) : PySet ω := (index.get? h).getD ∅

/-- `index` lists exactly the pairs of `R`, without empty sets. -/
structure Indexes (index : Dict η (PySet ω)) (R : ω → η → Prop) : Prop where
  mem_holders : ∀ h w, w ∈ holders index h ↔ R w h
  ne_empty : ∀ h ws, index.get? h = some ws → ws ≠ ∅

namespace Indexes

variable {index : Dict η (PySet ω)} {R : ω → η → Prop}

theorem empty : Indexes (∅ : Dict η (PySet ω)) fun _ _ => False :=
  ⟨fun h w => by simp [holders], fun h ws hs => by simp at hs⟩

theorem congr {R' : ω → η → Prop} (hi : Indexes index R) (hR : ∀ w h, R w h ↔ R' w h) :
    Indexes index R' :=
  ⟨fun h w => (hi.mem_holders h w).trans (hR w h), hi.ne_empty⟩

/-- An indexed key has a holder. -/
theorem exists_holder (hi : Indexes index R) {h : η} {ws : PySet ω} (hs : index.get? h = some ws) :
    ∃ w, R w h := by
  obtain ⟨w, hw⟩ := PySet.exists_mem_of_ne (hi.ne_empty h ws hs)
  exact ⟨w, (hi.mem_holders h w).1 (by rwa [holders, hs])⟩

end Indexes

variable [DecidableEq ω]

/-- Record that `w` holds `h`. -/
def add (index : Dict η (PySet ω)) (w : ω) (h : η) : Dict η (PySet ω) :=
  index.set h ((holders index h).insert w)

/-- Discard `w` from the holders of `h`, and `h` from the index when nobody is left. -/
def discard (index : Dict η (PySet ω)) (w : ω) (h : η) : Dict η (PySet ω) :=
  match index.get? h with
  | none => index
  | some ws =>
    if ws = ∅ then index
    else if ws.erase w = ∅ then index.erase h
    else index.set h (ws.erase w)

/-- Discard `w` from the holders of every listed key. -/
def discardAll (index : Dict η (PySet ω)) (w : ω) (hs : List η) : Dict η (PySet ω) :=
  hs.foldl (fun index h => discard index w h) index

theorem mem_holders_add {index : Dict η (PySet ω)} {w w' : ω} {h h' : η} :
    w' ∈ holders (add index w h) h' ↔ (w' = w ∧ h' = h) ∨ w' ∈ holders index h' := by
  unfold add
  by_cases hh : h' = h
  · subst hh
    rw [holders, Dict.get?_set, if_pos rfl, Option.getD_some, PySet.mem_insert]
    simp
  · simp [holders, hh]

theorem mem_holders_discard {index : Dict η (PySet ω)} {w w' : ω} {h h' : η} :
    w' ∈ holders (discard index w h) h' ↔ w' ∈ holders index h' ∧ ¬ (w' = w ∧ h' = h) := by
  unfold discard
  split
  · rename_i hn
    by_cases hh : h' = h
    · subst hh
      simp [holders, hn]
    · simp [hh]
  · rename_i ws hs
    split_ifs with he he'
    · subst he
      by_cases hh : h' = h
      · subst hh
        simp [holders, hs]
      · simp [hh]
    · by_cases hh : h' = h
      · subst hh
        have hw := PySet.eq_empty_iff.1 he' w'
        rw [PySet.mem_erase] at hw
        simp only [holders, Dict.get?_erase, if_true, Option.getD_none, PySet.notMem_empty, hs,
          Option.getD_some, and_true, false_iff]
        tauto
      · simp [holders, hh]
    · by_cases hh : h' = h
      · subst hh
        simp [holders, hs, and_comm]
      · simp [holders, hh]

namespace Indexes

variable {index : Dict η (PySet ω)} {R : ω → η → Prop}

theorem add (hi : Indexes index R) (w : ω) (h : η) :
    Indexes (add index w h) fun w' h' => (w' = w ∧ h' = h) ∨ R w' h' := by
  refine ⟨fun h' w' => by rw [mem_holders_add, hi.mem_holders], fun h' ws hs => ?_⟩
  rw [InvertedIndex.add, Dict.get?_set] at hs
  split_ifs at hs with hh
  · obtain rfl := Option.some.inj hs
    exact fun he => PySet.eq_empty_iff.1 he w (PySet.mem_insert.2 (Or.inl rfl))
  · exact hi.ne_empty h' ws hs

theorem discard (hi : Indexes index R) (w : ω) (h : η) :
    Indexes (discard index w h) fun w' h' => R w' h' ∧ ¬ (w' = w ∧ h' = h) := by
  refine ⟨fun h' w' => by rw [mem_holders_discard, hi.mem_holders], fun h' ws hs => ?_⟩
  unfold InvertedIndex.discard at hs
  split at hs
  · exact hi.ne_empty h' ws hs
  · split_ifs at hs with he he'
    · exact hi.ne_empty h' ws hs
    · rw [Dict.get?_erase] at hs
      split_ifs at hs
      exact hi.ne_empty h' ws hs
    · rw [Dict.get?_set] at hs
      split_ifs at hs
      · obtain rfl := Option.some.inj hs
        exact he'
      · exact hi.ne_empty h' ws hs

theorem discardAll (hi : Indexes index R) (w : ω) (hs : List η) :
    Indexes (discardAll index w hs) fun w' h' => R w' h' ∧ ¬ (w' = w ∧ h' ∈ hs) := by
  induction hs generalizing index R with
  | nil => exact hi.congr fun w' h' => by simp
  | cons h hs ih =>
    refine (ih (hi.discard w h)).congr fun w' h' => ?_
    rw [List.mem_cons]
    tauto

end Indexes

end Aidars.InvertedIndex
