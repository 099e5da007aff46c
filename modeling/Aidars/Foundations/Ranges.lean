import Mathlib.Algebra.BigOperators.Group.List.Basic
import Mathlib.Algebra.Order.Group.Int
import Mathlib.Data.List.Pairwise
import Mathlib.Data.List.Range

/-!
# Ranges end to end

A range is a pair, its start and its stop, of which the stop is not in it. Ranges are `Chained` from
`a` to `b` if the first begins at `a`, each where the one before stops, and the last stops at `b`.

Integer ranges that are chained from `0` to `n`, none backwards, partition the indices below `n`
(`Chained.partitions`). If those that are empty get one index, the indices stay covered, but the
ranges are disjoint only if no range below `n` was empty (`partitions_widen_iff`).
-/

namespace Aidars

/-- Ranges from `a` to `b`, end to end. -/
def Chained {α : Type*} (a b : α) : List (α × α) → Prop
  | [] => a = b
  | r :: l => r.1 = a ∧ Chained r.2 b l

namespace Chained

variable {α β : Type*}

theorem map {a b : α} {l : List (α × α)} (f : α → β) (h : Chained a b l) :
    Chained (f a) (f b) (l.map (Prod.map f f)) := by
  induction l generalizing a with
  | nil => exact congrArg f h
  | cons r l ih => exact ⟨congrArg f h.1, ih h.2⟩

/-- Ranges that do not go backwards stay between the ends. -/
theorem bounds [Preorder α] {a b : α} {l : List (α × α)} (h : Chained a b l)
    (hle : ∀ r ∈ l, r.1 ≤ r.2) : a ≤ b ∧ ∀ r ∈ l, a ≤ r.1 ∧ r.2 ≤ b := by
  induction l generalizing a with
  | nil => exact ⟨le_of_eq h, by simp⟩
  | cons r l ih =>
    obtain ⟨rfl, htail⟩ := h
    obtain ⟨hr, hl⟩ := List.forall_mem_cons.mp hle
    obtain ⟨hrb, hrest⟩ := ih htail hl
    refine ⟨hr.trans hrb, List.forall_mem_cons.mpr ⟨⟨le_rfl, hrb⟩, fun s hs => ?_⟩⟩
    exact ⟨hr.trans (hrest s hs).1, (hrest s hs).2⟩

theorem of_borders (c : ℕ → α) (n : ℕ) :
    Chained (c 0) (c n) ((List.range n).map fun k => (c k, c (k + 1))) := by
  induction n generalizing c with
  | zero => exact rfl
  | succ n ih =>
    rw [List.range_succ_eq_map, List.map_cons, List.map_map]
    exact ⟨rfl, ih fun k => c (k + 1)⟩

end Chained

/-! ## Ranges of indices -/

/-- An index lies in a range. -/
def InRange (r : ℤ × ℤ) (i : ℤ) : Prop := r.1 ≤ i ∧ i < r.2

instance (r : ℤ × ℤ) (i : ℤ) : Decidable (InRange r i) := inferInstanceAs (Decidable (_ ∧ _))

/-- What a range takes of a list. -/
def slice {β : Type*} (l : List β) (r : ℤ × ℤ) : List β :=
  (l.drop r.1.toNat).take (r.2 - r.1).toNat

theorem mem_slice {β : Type*} {l : List β} {r : ℤ × ℤ} (h : 0 ≤ r.1) {x : β} :
    x ∈ slice l r ↔ ∃ j : ℕ, InRange r j ∧ l[j]? = some x := by
  rw [slice, List.mem_iff_getElem?]
  constructor
  · rintro ⟨k, hk⟩
    rw [List.getElem?_take, List.getElem?_drop] at hk
    split_ifs at hk with hlt
    refine ⟨r.1.toNat + k, ?_, hk⟩
    unfold InRange
    omega
  · rintro ⟨j, hj, hx⟩
    unfold InRange at hj
    refine ⟨j - r.1.toNat, ?_⟩
    rw [List.getElem?_take, if_pos (by omega), List.getElem?_drop, ← hx]
    congr 1
    omega

theorem length_slice {β : Type*} {l : List β} {r : ℤ × ℤ} (hstart : 0 ≤ r.1)
    (hstop : r.2 ≤ l.length) : (slice l r).length = (r.2 - r.1).toNat := by
  rw [slice, List.length_take, List.length_drop]
  omega

/-- The ranges are disjoint and cover the indices below `n`. -/
structure Partitions (n : ℤ) (l : List (ℤ × ℤ)) : Prop where
  disjoint : l.Pairwise fun r s => ∀ i, InRange r i → ¬InRange s i
  cover : ∀ i, (∃ r ∈ l, InRange r i) ↔ 0 ≤ i ∧ i < n

/-- A range as it is, but one index instead of none, up to `n`. -/
def widen (n : ℤ) (r : ℤ × ℤ) : ℤ × ℤ := if r.2 = r.1 then (r.1, min n (r.1 + 1)) else r

variable {a b n i : ℤ} {r : ℤ × ℤ} {l : List (ℤ × ℤ)}

theorem inRange_widen : InRange (widen n r) i ↔ InRange r i ∨ r.1 = r.2 ∧ r.1 = i ∧ i < n := by
  unfold widen InRange
  split_ifs with h
  · dsimp only
    omega
  · omega

namespace Chained

theorem cover (h : Chained a b l) (hle : ∀ r ∈ l, r.1 ≤ r.2) :
    (∃ r ∈ l, InRange r i) ↔ a ≤ i ∧ i < b := by
  induction l generalizing a with
  | nil =>
    obtain rfl : a = b := h
    simp
  | cons r l ih =>
    obtain ⟨rfl, htail⟩ := h
    obtain ⟨hr, hl⟩ := List.forall_mem_cons.mp hle
    have hb := (htail.bounds hl).1
    rw [List.exists_mem_cons_iff, ih htail hl, InRange]
    omega

theorem disjoint (h : Chained a b l) (hle : ∀ r ∈ l, r.1 ≤ r.2) :
    l.Pairwise fun r s => ∀ i, InRange r i → ¬InRange s i := by
  induction l generalizing a with
  | nil => exact .nil
  | cons r l ih =>
    obtain ⟨rfl, htail⟩ := h
    obtain ⟨hr, hl⟩ := List.forall_mem_cons.mp hle
    refine List.pairwise_cons.mpr ⟨fun s hs i hri hsi => ?_, ih htail hl⟩
    have hstop : i < r.2 := hri.2
    have hstart := ((htail.cover hl).mp ⟨s, hs, hsi⟩).1
    omega

/-- **Ranges end to end partition the indices.** -/
theorem partitions (h : Chained 0 n l) (hle : ∀ r ∈ l, r.1 ≤ r.2) : Partitions n l :=
  ⟨h.disjoint hle, fun _ => h.cover hle⟩

theorem cover_widen (h : Chained 0 n l) (hle : ∀ r ∈ l, r.1 ≤ r.2) :
    (∃ r ∈ l.map (widen n), InRange r i) ↔ 0 ≤ i ∧ i < n := by
  rw [← h.cover hle]
  constructor
  · rintro ⟨_, hmem, hi⟩
    obtain ⟨r, hr, rfl⟩ := List.mem_map.mp hmem
    rcases inRange_widen.mp hi with hi | ⟨-, rfl, hlt⟩
    · exact ⟨r, hr, hi⟩
    · exact (h.cover hle).mpr ⟨((h.bounds hle).2 r hr).1, hlt⟩
  · rintro ⟨r, hr, hi⟩
    exact ⟨_, List.mem_map_of_mem hr, inRange_widen.mpr (.inl hi)⟩

end Chained

/-- **Widened ranges partition the indices exactly if no range below the end was empty.** -/
theorem partitions_widen_iff (h : Chained 0 n l) (hle : ∀ r ∈ l, r.1 ≤ r.2) :
    Partitions n (l.map (widen n)) ↔ ∀ r ∈ l, r.1 = r.2 → r.1 = n := by
  constructor
  · intro hpart r hr hempty
    by_contra hne
    have hbounds := (h.bounds hle).2 r hr
    have hlt : r.1 < n := by omega
    obtain ⟨s, hs, hin⟩ := (h.cover hle).mpr ⟨hbounds.1, hlt⟩
    have hrs : r ≠ s := by
      rintro rfl
      unfold InRange at hin
      omega
    have hsymm : Std.Symm fun r s : ℤ × ℤ => ∀ i, InRange (widen n r) i → ¬InRange (widen n s) i :=
      ⟨fun x y hxy i hy hx => hxy i hx hy⟩
    have hpair := List.pairwise_map.mp hpart.disjoint
    exact hpair.forall hr hs hrs r.1 (inRange_widen.mpr (.inr ⟨hempty, rfl, hlt⟩))
      (inRange_widen.mpr (.inl hin))
  · intro hnone
    have hsame : ∀ r ∈ l, widen n r = r := by
      intro r hr
      unfold widen
      split_ifs with hempty
      · have hend := hnone r hr hempty.symm
        exact Prod.ext rfl (by dsimp only; omega)
      · rfl
    rw [List.map_congr_left hsame, List.map_id']
    exact h.partitions hle

end Aidars
