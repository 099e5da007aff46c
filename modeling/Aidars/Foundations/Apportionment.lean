import Mathlib.Algebra.BigOperators.Field
import Mathlib.Algebra.Order.BigOperators.Group.Finset
import Mathlib.Algebra.Order.Floor.Ring
import Mathlib.Data.Fintype.BigOperators
import Mathlib.Tactic.Linarith

/-!
# Apportionment by largest remainders

`n` items are shared out in proportion to weights. Each party gets its quota rounded down, and the
items that are left go to the parties with the largest remainders, the earlier party first where
remainders are equal. `RoundedUp n q T` says that `T` are the parties that get one more.

The shares are the items (`sum_share`), each is less than one away from its quota
(`abs_share_sub_quota_lt`), and more weight never gets fewer items (`share_le_share`).
`le_share_iff` says when a share reaches a number.
-/

namespace Aidars.Apportionment

variable {ι α : Type*} [Fintype ι] [Field α] [LinearOrder α] [IsStrictOrderedRing α] [FloorRing α]

/-! ## Quotas -/

/-- What is proportional to a weight. -/
def quota (n : ℤ) (s : ι → α) (i : ι) : α := n * (s i / ∑ j, s j)

/-- The items that are left after rounding down. -/
def leftover (n : ℤ) (q : ι → α) : ℤ := n - ∑ i, ⌊q i⌋

variable {n : ℤ} {s q : ι → α} {i j : ι}

omit [LinearOrder α] [IsStrictOrderedRing α] [FloorRing α] in
theorem sum_quota (hs : ∑ j, s j ≠ 0) : ∑ i, quota n s i = n := by
  unfold quota
  rw [← Finset.mul_sum, ← Finset.sum_div, div_self hs, mul_one]

omit [FloorRing α] in
theorem quota_nonneg (hn : 0 ≤ n) (hs : ∀ j, 0 ≤ s j) (i : ι) : 0 ≤ quota n s i :=
  mul_nonneg (Int.cast_nonneg hn) (div_nonneg (hs i) (Finset.sum_nonneg fun j _ => hs j))

omit [FloorRing α] in
theorem quota_lt_quota (hn : 0 < n) (hs : 0 < ∑ j, s j) (hij : s i < s j) :
    quota n s i < quota n s j :=
  mul_lt_mul_of_pos_left (div_lt_div_of_pos_right hij hs) (Int.cast_pos.2 hn)

omit [IsStrictOrderedRing α] in
/-- The items that are left are the sum of the remainders. -/
theorem leftover_eq (hq : ∑ i, q i = n) : (leftover n q : α) = ∑ i, Int.fract (q i) := by
  unfold leftover Int.fract
  rw [Finset.sum_sub_distrib, hq]
  push_cast
  rfl

theorem leftover_nonneg (hq : ∑ i, q i = n) : 0 ≤ leftover n q := by
  have h : (0 : α) ≤ leftover n q := by
    rw [leftover_eq hq]
    exact Finset.sum_nonneg fun i _ => Int.fract_nonneg (q i)
  exact_mod_cast h

/-- There are at most as many items left as parties. -/
theorem leftover_le_card (hq : ∑ i, q i = n) : leftover n q ≤ Fintype.card ι := by
  have h : (leftover n q : α) ≤ Fintype.card ι := by
    rw [leftover_eq hq, ← Finset.card_univ]
    have hle := Finset.sum_le_card_nsmul Finset.univ (fun i => Int.fract (q i)) 1
      fun i _ => (Int.fract_lt_one (q i)).le
    simpa using hle
  exact_mod_cast h

/-! ## The order of the remainders -/

variable [LinearOrder ι]

/-- The first party has the larger remainder, or an equal one and comes earlier. -/
def Before (q : ι → α) (j i : ι) : Prop :=
  Int.fract (q i) < Int.fract (q j) ∨ Int.fract (q j) = Int.fract (q i) ∧ j < i

instance (q : ι → α) : DecidableRel (Before q) := fun _ _ =>
  inferInstanceAs (Decidable (_ ∨ _ ∧ _))

omit [Fintype ι] [IsStrictOrderedRing α] in
theorem Before.asymm (h : Before q j i) : ¬ Before q i j := by
  rintro (hlt | ⟨heq, hlt⟩)
  · rcases h with hlt' | ⟨heq, -⟩
    · exact lt_asymm hlt hlt'
    · exact hlt.ne heq
  · rcases h with hlt' | ⟨-, hlt'⟩
    · exact hlt'.ne heq
    · exact lt_asymm hlt hlt'

omit [Fintype ι] [IsStrictOrderedRing α] in
theorem Before.irrefl (i : ι) : ¬ Before q i i := fun h => h.asymm h

/-- The number of parties with larger remainders. -/
def rank (q : ι → α) (i : ι) : ℕ := (Finset.univ.filter fun j => Before q j i).card

/-- `T` are the parties that get one of the items that are left. -/
structure RoundedUp (n : ℤ) (q : ι → α) (T : Finset ι) : Prop where
  card : (T.card : ℤ) = leftover n q
  first : ∀ i ∈ T, ∀ j ∉ T, Before q i j

variable {T : Finset ι}

omit [IsStrictOrderedRing α] in
/-- The parties that are rounded up are those of the smallest ranks. -/
theorem RoundedUp.mem_iff (h : RoundedUp n q T) : i ∈ T ↔ (rank q i : ℤ) < leftover n q := by
  rw [← h.card, Nat.cast_lt]
  unfold rank
  constructor
  · intro hi
    refine Finset.card_lt_card (Finset.ssubset_iff_subset_ne.2 ⟨fun j hj => ?_, fun heq => ?_⟩)
    · by_contra hjT
      exact (h.first i hi j hjT).asymm (Finset.mem_filter.1 hj).2
    · rw [← heq] at hi
      exact Before.irrefl i (Finset.mem_filter.1 hi).2
  · intro hlt
    by_contra hi
    refine absurd hlt (not_lt.2 (Finset.card_le_card fun j hj => ?_))
    exact Finset.mem_filter.2 ⟨Finset.mem_univ j, h.first j hj i hi⟩

theorem RoundedUp.fract_pos (h : RoundedUp n q T) (hq : ∑ i, q i = n) (hi : i ∈ T) :
    0 < Int.fract (q i) := by
  refine (Int.fract_nonneg (q i)).lt_of_ne fun hzero => ?_
  -- otherwise all remainders are among the others of `T`, and too small for the items left
  have hout : ∀ j ∉ T, Int.fract (q j) = 0 := by
    intro j hj
    rcases h.first i hi j hj with hlt | ⟨heq, -⟩
    · exact absurd (hzero ▸ hlt) (not_lt.2 (Int.fract_nonneg (q j)))
    · rw [← heq, ← hzero]
  have hsum : ∑ j, Int.fract (q j) = ∑ j ∈ T.erase i, Int.fract (q j) := by
    refine (Finset.sum_subset (Finset.subset_univ _) fun j _ hj => ?_).symm
    by_cases hji : j = i
    · rw [hji, ← hzero]
    · exact hout j fun hjT => hj (Finset.mem_erase.2 ⟨hji, hjT⟩)
  have hle : ∑ j ∈ T.erase i, Int.fract (q j) ≤ ((T.erase i).card : α) := by
    have hle := Finset.sum_le_card_nsmul (T.erase i) (fun j => Int.fract (q j)) 1
      fun j _ => (Int.fract_lt_one (q j)).le
    simpa using hle
  have hcard : (T.card : α) ≤ (T.erase i).card := by
    have hleft := leftover_eq hq
    rw [← h.card, Int.cast_natCast] at hleft
    rw [hleft, hsum]
    exact hle
  have hlt : (T.erase i).card < T.card := Finset.card_erase_lt_of_mem hi
  exact absurd (Nat.cast_le.1 hcard) (not_le.2 hlt)

/-! ## Shares -/

/-- The items of a party. -/
def share (q : ι → α) (T : Finset ι) (i : ι) : ℤ := ⌊q i⌋ + if i ∈ T then 1 else 0

omit [IsStrictOrderedRing α] in
/-- **The shares are all the items.** -/
theorem sum_share (h : RoundedUp n q T) : ∑ i, share q T i = n := by
  have hup : ∑ i : ι, (if i ∈ T then (1 : ℤ) else 0) = T.card := by simp
  unfold share
  rw [Finset.sum_add_distrib, hup, h.card]
  unfold leftover
  omega

omit [Fintype ι] [IsStrictOrderedRing α] in
theorem share_nonneg (hq : 0 ≤ q i) : 0 ≤ share q T i := by
  have hfloor : 0 ≤ ⌊q i⌋ := Int.floor_nonneg.2 hq
  unfold share
  split_ifs <;> omega

/-- **A share is less than one away from its quota.** -/
theorem abs_share_sub_quota_lt (h : RoundedUp n q T) (hq : ∑ i, q i = n) (i : ι) :
    |(share q T i : α) - q i| < 1 := by
  have hfract : Int.fract (q i) = q i - ⌊q i⌋ := rfl
  have hlt := Int.fract_lt_one (q i)
  unfold share
  rw [abs_lt]
  split_ifs with hi
  · have hpos := h.fract_pos hq hi
    push_cast
    constructor <;> linarith
  · have hnonneg := Int.fract_nonneg (q i)
    push_cast
    constructor <;> linarith

/-- **A greater quota never gets fewer items.** -/
theorem share_le_share (h : RoundedUp n q T) (hij : q i < q j) : share q T i ≤ share q T j := by
  have hfloor : ⌊q i⌋ ≤ ⌊q j⌋ := Int.floor_le_floor hij.le
  unfold share
  split_ifs with hi hj
  · omega
  · rcases hfloor.lt_or_eq with hlt | heq
    · omega
    -- with equal floors the greater quota has the larger remainder
    · have hfract : Int.fract (q i) < Int.fract (q j) := by
        unfold Int.fract
        rw [heq]
        exact sub_lt_sub_right hij _
      exact absurd (.inl hfract) (h.first i hi j hj).asymm
  · omega
  · omega

omit [IsStrictOrderedRing α] in
/-- **When a share reaches a number**: the quota does, or it is less than one short and its
remainder is among those that are rounded up. -/
theorem le_share_iff (h : RoundedUp n q T) (m : ℤ) :
    m ≤ share q T i ↔ (m : α) ≤ q i ∨ ((m - 1 : ℤ) : α) ≤ q i ∧ (rank q i : ℤ) < leftover n q := by
  rw [← h.mem_iff, ← Int.le_floor, ← Int.le_floor]
  unfold share
  split_ifs with hi
  · simp only [hi, and_true]
    omega
  · simp only [hi, and_false, or_false]
    omega

end Aidars.Apportionment
