import Aidars.Foundations.Sorting
import Mathlib.Data.List.Nodup

/-!
# Rankings by a key

`sortOn key` sorts a list by a key in a linear order, and keeps the order of values with the same
key. A key without ties makes the sorted list independent of the order of the list
(`sortOn_eq_of_perm`).
-/

namespace Aidars

variable {α β : Type*} [LinearOrder β] {key : α → β} {l l' s : List α} {a b : α} {k : β}

/-- Sort a list by a key. -/
def sortOn (key : α → β) (l : List α) : List α := l.insertionSort fun a b => key a ≤ key b

theorem perm_sortOn (key : α → β) (l : List α) : (sortOn key l).Perm l :=
  List.perm_insertionSort _ l

theorem mem_sortOn : a ∈ sortOn key l ↔ a ∈ l := (perm_sortOn key l).mem_iff

theorem pairwise_sortOn (key : α → β) (l : List α) :
    (sortOn key l).Pairwise fun a b => key a ≤ key b := by
  have : Std.Total fun a b => key a ≤ key b := ⟨fun a b => le_total (key a) (key b)⟩
  have : IsTrans α fun a b => key a ≤ key b := ⟨fun _ _ _ => le_trans⟩
  exact List.pairwise_insertionSort _ l

/-! ## Sorted lists -/

/-- Sorted permutations of each other are equal if their keys differ. -/
theorem eq_of_perm_of_pairwise (hinj : ∀ a ∈ l, ∀ b ∈ l, key a = key b → a = b)
    (hp : l.Perm l') (hl : l.Pairwise fun a b => key a ≤ key b)
    (hl' : l'.Pairwise fun a b => key a ≤ key b) : l = l' :=
  hp.eq_of_pairwise
    (fun a b ha hb hab hba => hinj a ha b (hp.mem_iff.2 hb) (le_antisymm hab hba)) hl hl'

theorem sortOn_eq_of_perm_of_pairwise (hinj : ∀ a ∈ s, ∀ b ∈ s, key a = key b → a = b)
    (hp : l.Perm s) (hs : s.Pairwise fun a b => key a ≤ key b) : sortOn key l = s :=
  (eq_of_perm_of_pairwise hinj (hp.symm.trans (perm_sortOn key l).symm) hs
    (pairwise_sortOn key l)).symm

/-- **Without ties the sorted list does not depend on the order of the list.** -/
theorem sortOn_eq_of_perm (hinj : ∀ a ∈ l, ∀ b ∈ l, key a = key b → a = b) (hp : l'.Perm l) :
    sortOn key l' = sortOn key l := by
  refine sortOn_eq_of_perm_of_pairwise (fun a ha b hb => ?_) (hp.trans (perm_sortOn key l).symm)
    (pairwise_sortOn key l)
  exact hinj a (mem_sortOn.1 ha) b (mem_sortOn.1 hb)

theorem orderedInsert_of_forall (h : ∀ b ∈ l, key a ≤ key b) :
    l.orderedInsert (fun a b => key a ≤ key b) a = a :: l := by
  cases l with
  | nil => rfl
  | cons b l => exact List.orderedInsert_cons_of_le _ l (h b List.mem_cons_self)

theorem filter_orderedInsert (p : α → Bool) (hl : l.Pairwise fun a b => key a ≤ key b) :
    (l.orderedInsert (fun a b => key a ≤ key b) a).filter p =
      if p a then (l.filter p).orderedInsert (fun a b => key a ≤ key b) a else l.filter p := by
  induction l with
  | nil => rw [List.orderedInsert_nil, List.filter_cons]; rfl
  | cons b l ih =>
    rw [List.orderedInsert_cons]
    by_cases hab : key a ≤ key b
    · have hall : ∀ c ∈ (b :: l).filter p, key a ≤ key c := by
        intro c hc
        rcases List.mem_cons.1 (List.mem_filter.1 hc).1 with rfl | hc
        · exact hab
        · exact hab.trans ((List.pairwise_cons.1 hl).1 c hc)
      rw [if_pos hab, List.filter_cons, orderedInsert_of_forall hall]
    · rw [if_neg hab, List.filter_cons, ih (List.pairwise_cons.1 hl).2, List.filter_cons]
      split_ifs with hpb ha
      · rw [List.orderedInsert_cons, if_neg hab]
      · rfl
      · rfl
      · rfl

/-- A part of a list is sorted as it is in the sorted list. -/
theorem sortOn_filter (p : α → Bool) (l : List α) :
    sortOn key (l.filter p) = (sortOn key l).filter p := by
  induction l with
  | nil => rfl
  | cons a l ih =>
    have hcons : sortOn key (a :: l) =
        (sortOn key l).orderedInsert (fun a b => key a ≤ key b) a := rfl
    rw [hcons, filter_orderedInsert p (pairwise_sortOn key l), List.filter_cons, ← ih]
    split_ifs <;> rfl

theorem map_sortOn {γ : Type*} (f : α → γ) (key : γ → β) (l : List α) :
    (sortOn (fun a => key (f a)) l).map f = sortOn key (l.map f) :=
  List.map_insertionSort _ _ f l fun _ _ _ _ => Iff.rfl

/-- **Sorted permutations of each other have the same keys at the same places.** -/
theorem map_key_sortOn_of_perm (hp : l'.Perm l) :
    (sortOn key l').map key = (sortOn key l).map key := by
  have hmap (m : List α) : (sortOn key m).map key = sortOn id (m.map key) := map_sortOn key id m
  rw [hmap, hmap]
  exact sortOn_eq_of_perm (fun _ _ _ _ => id) (hp.map key)

theorem sortOn_congr {key' : α → β} (h : ∀ a ∈ l, key a = key' a) :
    sortOn key l = sortOn key' l := by
  have hmap := List.map_insertionSort (fun a b => key a ≤ key b) (fun a b => key' a ≤ key' b) id l
    fun a ha b hb => by rw [h a ha, h b hb]; rfl
  rwa [List.map_id, List.map_id] at hmap

/-- A value is inserted behind values with its image only. -/
theorem map_orderedInsert {γ : Type*} {f : α → γ} (h : ∀ b ∈ l, key a ≤ key b ∨ f a = f b) :
    (l.orderedInsert (fun a b => key a ≤ key b) a).map f = f a :: l.map f := by
  induction l with
  | nil => rfl
  | cons b l ih =>
    rw [List.orderedInsert_cons]
    split_ifs with hab
    · rfl
    · have hfab : f a = f b := (h b List.mem_cons_self).resolve_left hab
      rw [List.map_cons, ih fun c hc => h c (List.mem_cons_of_mem b hc), List.map_cons, hfab]

/-- Sorting does not change the images if only values with the same image change places. -/
theorem map_sortOn_of_pairwise {γ : Type*} {f : α → γ}
    (h : l.Pairwise fun a b => key a ≤ key b ∨ f a = f b) :
    (sortOn key l).map f = l.map f := by
  induction l with
  | nil => rfl
  | cons a l ih =>
    obtain ⟨ha, hl⟩ := List.pairwise_cons.1 h
    have hcons : sortOn key (a :: l) =
        (sortOn key l).orderedInsert (fun a b => key a ≤ key b) a := rfl
    rw [hcons, map_orderedInsert fun b hb => ha b (mem_sortOn.1 hb), ih hl, List.map_cons]

end Aidars
