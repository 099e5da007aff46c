import Mathlib.Algebra.Order.Field.Basic
import Mathlib.Order.Interval.Set.Basic
import Mathlib.Data.Option.Basic
import Mathlib.Tactic.Linarith

/-!
# Clipping a line

A range of the parameters of a line is cut down by one constraint after the other, until the
constraints run out or nothing is left of it. `CutsTo cut s` says that a cut leaves of each range
precisely the parameters in `s`. Cuts in sequence leave what satisfies all constraints
(`left_foldlM`), and a line is between two parallel faces on an interval, whichever of them it
crosses first (`between_iff`).
-/

namespace Aidars

namespace Clipping

variable {K ι : Type*} [LinearOrder K]

/-- The parameters that are left of a range. -/
def left : Option (K × K) → Set K
  | none => ∅
  | some range => Set.Icc range.1 range.2

/-- A cut leaves of each range the parameters in a set. -/
def CutsTo (cut : K × K → Option (K × K)) (s : Set K) : Prop :=
  ∀ range, left (cut range) = Set.Icc range.1 range.2 ∩ s

/-- A cut that leaves the range as it is. -/
theorem cutsTo_keep {s : Set K} (h : ∀ t, t ∈ s) : CutsTo some s := by
  intro range
  rw [Set.eq_univ_of_forall h, Set.inter_univ]
  rfl

theorem cutsTo_drop {s : Set K} (h : ∀ t, t ∉ s) : CutsTo (fun _ => none) s := by
  intro range
  rw [Set.eq_empty_of_forall_notMem h, Set.inter_empty]
  rfl

/-- The cut to an interval. -/
def cutTo (a b : K) (range : K × K) : Option (K × K) :=
  if min range.2 b < max range.1 a then none else some (max range.1 a, min range.2 b)

theorem cutsTo_cutTo (a b : K) : CutsTo (cutTo a b) (Set.Icc a b) := by
  intro range
  rw [Set.Icc_inter_Icc, cutTo]
  split
  case isTrue h => exact (Set.Icc_eq_empty (not_le.mpr h)).symm
  case isFalse => rfl

/-- **Cuts in sequence leave what satisfies all constraints.** -/
theorem left_foldlM {cut : K × K → ι → Option (K × K)} {s : ι → Set K}
    (h : ∀ i, CutsTo (cut · i) (s i)) (l : List ι) (range : K × K) :
    left (l.foldlM cut range) = Set.Icc range.1 range.2 ∩ {t | ∀ i ∈ l, t ∈ s i} := by
  induction l generalizing range with
  | nil => simp [left]
  | cons i l ih =>
    have hcut : left (cut range i) = Set.Icc range.1 range.2 ∩ s i := h i range
    have hcons : {t | ∀ j ∈ i :: l, t ∈ s j} = s i ∩ {t | ∀ j ∈ l, t ∈ s j} := by
      ext t
      simp
    rw [List.foldlM_cons, hcons, ← Set.inter_assoc, ← hcut]
    cases cut range i with
    | none => exact (Set.empty_inter _).symm
    | some range' => exact ih range'

theorem le_of_foldlM {cut : K × K → ι → Option (K × K)}
    (h : ∀ i range range', cut range i = some range' → range.1 ≤ range.2 → range'.1 ≤ range'.2)
    {l : List ι} {range range' : K × K} (hfold : l.foldlM cut range = some range')
    (hrange : range.1 ≤ range.2) : range'.1 ≤ range'.2 := by
  induction l generalizing range with
  | nil =>
    obtain rfl := Option.some.inj hfold
    exact hrange
  | cons i l ih =>
    rw [List.foldlM_cons] at hfold
    obtain ⟨range₁, hcut, hrest⟩ := Option.bind_eq_some_iff.mp hfold
    exact ih hrest (h i range range₁ hcut hrange)

end Clipping

/-! ## Parallel faces -/

section Slab

variable {K : Type*} [Field K] [LinearOrder K] [IsStrictOrderedRing K]

/-- **A line that is not parallel to two faces is between them on an interval**, from where it
crosses the first of them to where it crosses the second. -/
theorem between_iff {low high a d : K} (hd : d ≠ 0) (h : low ≤ high) (t : K) :
    low ≤ a + t * d ∧ a + t * d ≤ high ↔
      t ∈ Set.Icc (min ((low - a) / d) ((high - a) / d))
        (max ((low - a) / d) ((high - a) / d)) := by
  rw [Set.mem_Icc]
  rcases hd.lt_or_gt with hneg | hpos
  · have hswap : (high - a) / d ≤ (low - a) / d := div_le_div_of_nonpos_of_le hneg.le (by linarith)
    rw [min_eq_right hswap, max_eq_left hswap, div_le_iff_of_neg hneg, le_div_iff_of_neg hneg]
    constructor <;> rintro ⟨hlow, hhigh⟩ <;> constructor <;> linarith
  · have hkeep : (low - a) / d ≤ (high - a) / d := div_le_div_of_nonneg_right (by linarith) hpos.le
    rw [min_eq_left hkeep, max_eq_right hkeep, div_le_iff₀ hpos, le_div_iff₀ hpos]
    constructor <;> rintro ⟨hlow, hhigh⟩ <;> constructor <;> linarith

end Slab

end Aidars
