import Mathlib.Algebra.Order.Group.Int
import Mathlib.Data.List.Range
import Mathlib.Tactic.SplitIfs

/-!
# Spans of integers

A span is a pair of integers, its first and its last. `depth l f` counts the spans of a list that
contain `f`, and `Covers l f` says that some span does. Spans are `Apart` if they are not empty, in
order, and at least one integer lies between any two of them; they are `Tiles` of a span if they are
not empty, the first begins where it begins, each begins where the one before ends, and the last
ends where it ends.
-/

namespace Aidars

/-- The first and the last of a run of integers. -/
abbrev Span := ℤ × ℤ

namespace Span

variable {l l' : List Span} {r s : Span} {f a b : ℤ}

/-- An integer lies in a span. -/
def Contains (r : Span) (f : ℤ) : Prop := r.1 ≤ f ∧ f ≤ r.2

instance (r : Span) (f : ℤ) : Decidable (r.Contains f) := inferInstanceAs (Decidable (_ ∧ _))

/-- How many spans contain an integer. -/
def depth (l : List Span) (f : ℤ) : ℕ := l.countP (·.Contains f)

/-- Some span contains an integer. -/
def Covers (l : List Span) (f : ℤ) : Prop := ∃ r ∈ l, r.Contains f

@[simp] theorem depth_nil : depth [] f = 0 := rfl

theorem depth_cons : depth (r :: l) f = depth l f + if r.Contains f then 1 else 0 := by
  simp [depth, List.countP_cons]

theorem depth_concat : depth (l ++ [r]) f = depth l f + if r.Contains f then 1 else 0 := by
  simp [depth, List.countP_append, List.countP_singleton]

theorem depth_perm (h : l.Perm l') : depth l f = depth l' f := h.countP_eq _

theorem covers_iff_depth : Covers l f ↔ 0 < depth l f := by
  simp [Covers, depth, List.countP_pos_iff]

@[simp] theorem covers_nil : ¬ Covers [] f := by simp [Covers]

@[simp] theorem covers_cons : Covers (r :: l) f ↔ r.Contains f ∨ Covers l f := by simp [Covers]

@[simp] theorem covers_append : Covers (l ++ l') f ↔ Covers l f ∨ Covers l' f := by
  simp [Covers, or_and_right, exists_or]

/-- Spans of which none is empty are none if they contain nothing. -/
theorem eq_nil_of_not_covers (hne : ∀ r ∈ l, r.1 ≤ r.2) (h : ∀ f, ¬ Covers l f) : l = [] := by
  cases l with
  | nil => rfl
  | cons r l => exact absurd ⟨r, List.mem_cons_self, le_refl _, hne r List.mem_cons_self⟩ (h r.1)

/-! ## Spans with gaps between them -/

/-- The spans are not empty, in order, and do not touch. -/
structure Apart (l : List Span) : Prop where
  nonempty : ∀ r ∈ l, r.1 ≤ r.2
  gaps : l.Pairwise fun r s => r.2 + 1 < s.1

theorem Apart.nil : Apart [] := ⟨by simp, .nil⟩

theorem Apart.tail (h : Apart (r :: l)) : Apart l :=
  ⟨fun s hs => h.nonempty s (List.mem_cons_of_mem _ hs), (List.pairwise_cons.mp h.gaps).2⟩

/-- A span after the last. -/
theorem Apart.concat (h : Apart l) (hr : r.1 ≤ r.2) (hlast : ∀ s ∈ l, s.2 + 1 < r.1) :
    Apart (l ++ [r]) := by
  refine ⟨fun s hs => ?_, ?_⟩
  · rcases List.mem_append.mp hs with hs | hs
    · exact h.nonempty s hs
    · rwa [List.mem_singleton.mp hs]
  · rw [List.pairwise_append]
    refine ⟨h.gaps, List.pairwise_singleton _ _, fun s hs t ht => ?_⟩
    rw [List.mem_singleton.mp ht]
    exact hlast s hs

theorem Apart.before_last (h : Apart (l ++ [r])) : Apart l ∧ ∀ s ∈ l, s.2 + 1 < r.1 := by
  obtain ⟨hl, -, hlast⟩ := List.pairwise_append.mp h.gaps
  exact ⟨⟨fun s hs => h.nonempty s (List.mem_append_left _ hs), hl⟩,
    fun s hs => hlast s hs r List.mem_cons_self⟩

/-- What begins after the end of the first span is past it and one more. -/
theorem Apart.lt_of_covers (h : Apart (r :: l)) (hf : Covers l f) : r.2 + 1 < f := by
  obtain ⟨s, hs, hlow, -⟩ := hf
  exact ((List.pairwise_cons.mp h.gaps).1 s hs).trans_le hlow

/-! ## Tilings -/

/-- The spans follow each other from `a` to `b`. -/
inductive Tiles : ℤ → ℤ → List Span → Prop
  | nil (a : ℤ) : Tiles a (a - 1) []
  | cons {a e b : ℤ} {l : List Span} (hne : a ≤ e) (ht : Tiles (e + 1) b l) :
    Tiles a b ((a, e) :: l)

namespace Tiles

theorem le (h : Tiles a b l) : a ≤ b + 1 := by
  induction h with
  | nil => omega
  | cons => omega

theorem nonempty (h : Tiles a b l) : ∀ r ∈ l, r.1 ≤ r.2 := by
  induction h with
  | nil => simp
  | cons hne _ ih =>
    intro r hr
    rcases List.mem_cons.mp hr with rfl | hr
    · exact hne
    · exact ih r hr

/-- Each tile begins where the one before ends. -/
theorem contiguous (h : Tiles a b l) : l.IsChain fun r s => s.1 = r.2 + 1 := by
  induction h with
  | nil => exact .nil
  | cons _ ht ih =>
    cases ht with
    | nil => exact .singleton _
    | cons => exact .cons_cons rfl ih

/-- **Every integer of a span is in one of its tiles, and no other is in any.** -/
theorem depth_eq (h : Tiles a b l) (f : ℤ) : depth l f = if a ≤ f ∧ f ≤ b then 1 else 0 := by
  induction h with
  | nil a => rw [depth_nil, if_neg (by omega)]
  | @cons a e b l hne ht ih =>
    have hle := ht.le
    rw [depth_cons, ih]
    by_cases hhead : Contains (a, e) f
    · have hin : a ≤ f ∧ f ≤ e := hhead
      rw [if_neg (by omega), if_pos hhead, if_pos (by omega)]
    · have hout : ¬ (a ≤ f ∧ f ≤ e) := hhead
      rw [if_neg hhead, Nat.add_zero]
      exact if_congr (by omega) rfl rfl

theorem of_borders (c : ℕ → ℤ) (n : ℕ) (h : ∀ i < n, c i < c (i + 1)) :
    Tiles (c 0) (c n - 1) ((List.range n).map fun i => (c i, c (i + 1) - 1)) := by
  induction n generalizing c with
  | zero => exact .nil _
  | succ n ih =>
    rw [List.range_succ_eq_map, List.map_cons, List.map_map]
    have htail := ih (fun i => c (i + 1)) fun i hi => h (i + 1) (by omega)
    refine .cons (by have := h 0 (by omega); omega) ?_
    rw [show c (0 + 1) - 1 + 1 = c 1 by simp]
    exact htail

end Tiles

end Span

end Aidars
