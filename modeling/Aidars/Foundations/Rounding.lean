import Mathlib.Algebra.Order.Floor.Ring
import Mathlib.Algebra.Order.Round
import Mathlib.Tactic.FieldSimp
import Mathlib.Tactic.Linarith
import Mathlib.Tactic.NormNum
import Mathlib.Tactic.Positivity
import Mathlib.Tactic.Push

/-!
# Rounding to the nearest, ties to even

`roundEven x` is the integer nearest to `x`, of two the even one, and `roundTo k x` the nearest
number of `k` decimals. `Nearest x m` says without the algorithm which integer that is
(`roundEven_eq_iff`); from it follow the order, the error of at most a half, and which numbers are
rounded to an integer or less (`roundEven_lt_iff`).

Numbers that are at least one apart may be rounded to one integer: exactly if they are one apart and
lie halfway below and above an even integer (`roundEven_eq_roundEven_iff`).
-/

namespace Aidars

variable {α : Type*} [Field α] [LinearOrder α] [IsStrictOrderedRing α] {x y : α} {m n : ℤ}

/-- The integer `m` is nearest to `x`, or one of the two nearest and even. -/
def Nearest (x : α) (m : ℤ) : Prop := |x - m| < 1 / 2 ∨ |x - m| = 1 / 2 ∧ Even m

omit [IsStrictOrderedRing α] in
theorem Nearest.abs_sub_le (h : Nearest x m) : |x - m| ≤ 1 / 2 := by
  rcases h with h | h
  · exact h.le
  · exact h.1.le

theorem nearest_intCast (m : ℤ) : Nearest (m : α) m := by
  left
  rw [sub_self, abs_zero]
  norm_num

/-- What is nearest to the smaller of two numbers is not the larger. -/
theorem Nearest.le (hx : Nearest x m) (hy : Nearest y n) (hxy : x ≤ y) : m ≤ n := by
  by_contra hlt
  push Not at hlt
  have hxm := abs_le.mp hx.abs_sub_le
  have hyn := abs_le.mp hy.abs_sub_le
  have hcast : (n : α) + 1 ≤ m := by exact_mod_cast hlt
  -- both lie halfway between neighbours, of which only one is even
  have hmn : m = n + 1 := by
    have : (m : α) ≤ n + 1 := by linarith
    have hle : m ≤ n + 1 := by exact_mod_cast this
    omega
  have hxe : |x - m| = 1 / 2 := by
    refine le_antisymm hx.abs_sub_le ?_
    rw [abs_sub_comm]
    exact le_trans (by linarith) (le_abs_self _)
  have hye : |y - n| = 1 / 2 := le_antisymm hy.abs_sub_le (le_trans (by linarith) (le_abs_self _))
  have hm : Even m := (hx.resolve_left hxe.not_lt).2
  have hn : Even n := (hy.resolve_left hye.not_lt).2
  rw [hmn] at hm
  exact Int.even_add_one.mp hm hn

theorem Nearest.unique (hm : Nearest x m) (hn : Nearest x n) : m = n :=
  le_antisymm (hm.le hn le_rfl) (hn.le hm le_rfl)

/-! ## The rounded number -/

variable [FloorRing α]

/-- The nearest integer, of two the even one. -/
def roundEven (x : α) : ℤ :=
  if x - ⌊x⌋ < 1 / 2 then ⌊x⌋
  else if 1 / 2 < x - ⌊x⌋ then ⌊x⌋ + 1
  else if Even ⌊x⌋ then ⌊x⌋ else ⌊x⌋ + 1

theorem nearest_roundEven (x : α) : Nearest x (roundEven x) := by
  have hlow := Int.floor_le x
  have hhigh := Int.lt_floor_add_one x
  unfold roundEven Nearest
  split_ifs with hlt hgt heven
  · left
    rwa [abs_of_nonneg (by linarith)]
  · left
    push_cast
    rw [abs_of_nonpos (by linarith)]
    linarith
  · right
    rw [abs_of_nonneg (by linarith)]
    exact ⟨by linarith, heven⟩
  · right
    push_cast
    rw [abs_of_nonpos (by linarith)]
    exact ⟨by linarith, Int.even_add_one.mpr heven⟩

/-- **The rounded number is the nearest.** -/
theorem roundEven_eq_iff : roundEven x = m ↔ Nearest x m :=
  ⟨fun h => h ▸ nearest_roundEven x, fun h => (nearest_roundEven x).unique h⟩

theorem abs_sub_roundEven_le (x : α) : |x - roundEven x| ≤ 1 / 2 := (nearest_roundEven x).abs_sub_le

@[simp] theorem roundEven_intCast (m : ℤ) : roundEven (m : α) = m :=
  roundEven_eq_iff.mpr (nearest_intCast m)

@[simp] theorem roundEven_natCast (n : ℕ) : roundEven (n : α) = n := by
  simpa using roundEven_intCast (α := α) n

@[simp] theorem roundEven_zero : roundEven (0 : α) = 0 := by
  simpa using roundEven_intCast (α := α) 0

theorem roundEven_mono (h : x ≤ y) : roundEven x ≤ roundEven y :=
  (nearest_roundEven x).le (nearest_roundEven y) h

theorem roundEven_nonneg (h : 0 ≤ x) : 0 ≤ roundEven x := by
  simpa using roundEven_mono h

theorem roundEven_le_of_le (h : x ≤ m) : roundEven x ≤ m := by
  simpa using roundEven_mono h

/-- Which numbers are rounded to less than an integer. -/
theorem roundEven_lt_iff : roundEven x < n ↔ x + 1 / 2 < n ∨ x + 1 / 2 = n ∧ Odd n := by
  have hnear := nearest_roundEven x
  have habs := abs_le.mp hnear.abs_sub_le
  constructor
  · intro h
    have hcast : (roundEven x : α) + 1 ≤ n := by exact_mod_cast h
    rcases lt_or_ge (x + 1 / 2) n with hlt | hge
    · exact .inl hlt
    · have hx : x - roundEven x = 1 / 2 := by linarith
      have heq : (n : α) = (roundEven x + 1 : ℤ) := by push_cast; linarith
      have heven : Even (roundEven x) :=
        (hnear.resolve_left (by rw [hx]; norm_num)).2
      refine .inr ⟨by linarith, ?_⟩
      rw [Int.cast_injective heq]
      exact heven.add_one
  · rintro (h | ⟨h, hodd⟩)
    · by_contra hge
      push Not at hge
      have hcast : (n : α) ≤ roundEven x := by exact_mod_cast hge
      linarith
    · have hround : roundEven x = n - 1 := by
        refine roundEven_eq_iff.mpr (.inr ⟨?_, ?_⟩)
        · push_cast
          rw [abs_of_nonneg (by linarith)]
          linarith
        · exact hodd.sub_odd odd_one
      omega

/-- **Numbers at least one apart are rounded to one integer exactly if they are one apart, halfway
below and above an even integer.** -/
theorem roundEven_eq_roundEven_iff (h : x + 1 ≤ y) :
    roundEven x = roundEven y ↔ y = x + 1 ∧ ∃ m : ℤ, Odd m ∧ x = m + 1 / 2 := by
  constructor
  · intro heq
    have hx := nearest_roundEven x
    have hxle := abs_le.mp hx.abs_sub_le
    have hyle := abs_le.mp (abs_sub_roundEven_le y)
    rw [← heq] at hyle
    have hlow : x - roundEven x = -(1 / 2) := by linarith
    have heven : Even (roundEven x) := (hx.resolve_left (by rw [hlow]; norm_num)).2
    refine ⟨by linarith, roundEven x - 1, heven.sub_odd odd_one, ?_⟩
    push_cast
    linarith
  · rintro ⟨rfl, m, hodd, rfl⟩
    have hnext : Even (m + 1) := hodd.add_one
    have hlow : roundEven ((m : α) + 1 / 2) = m + 1 := by
      refine roundEven_eq_iff.mpr (.inr ⟨?_, hnext⟩)
      push_cast
      rw [abs_of_nonpos (by linarith)]
      linarith
    have hhigh : roundEven ((m : α) + 1 / 2 + 1) = m + 1 := by
      refine roundEven_eq_iff.mpr (.inr ⟨?_, hnext⟩)
      push_cast
      rw [abs_of_nonneg (by linarith)]
      linarith
    rw [hlow, hhigh]

/-! ## Decimals -/

/-- The nearest number of `k` decimals, of two the one whose last digit is even. -/
def roundTo (k : ℕ) (x : α) : α := roundEven (x * 10 ^ k) / 10 ^ k

theorem roundTo_eq_iff {k : ℕ} : roundTo k x = m / 10 ^ k ↔ roundEven (x * 10 ^ k) = m := by
  have hpos : (10 : α) ^ k ≠ 0 := by positivity
  rw [roundTo, div_left_inj' hpos, Int.cast_inj]

@[simp] theorem roundTo_zero (k : ℕ) : roundTo k (0 : α) = 0 := by
  simp [roundTo]

end Aidars
