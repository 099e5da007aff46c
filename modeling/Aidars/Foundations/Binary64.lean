import Aidars.Foundations.FloatArithmetic
import Aidars.Foundations.Rounding
import Mathlib.Data.Int.Log

/-!
# Rounding to double precision

`binary64 q` is the double nearest to a rational, of two the one whose last digit is even, and an
infinity from `2 ^ 1024 - 2 ^ 970` on. It keeps the order and the whole numbers up to `2 ^ 53`
(`roundsInOrder_binary64`).
-/

namespace Aidars

/-- The unit of the last of 53 binary digits, and not less than that of the subnormal numbers. -/
def lastDigit (q : ℚ) : ℚ := 2 ^ max (Int.log 2 |q| - 52) (-1074)

/-- The nearest number of 53 binary digits, whatever its exponent. -/
def nearestDigits (q : ℚ) : ℚ := roundEven (q / lastDigit q) * lastDigit q

/-- The double nearest to a rational. -/
def binary64 (q : ℚ) : PyFloat :=
  if 2 ^ 1024 ≤ nearestDigits q then .posInf
  else if nearestDigits q ≤ -2 ^ 1024 then .negInf
  else .finite (nearestDigits q)

variable {p q : ℚ}

theorem lastDigit_pos (q : ℚ) : 0 < lastDigit q := zpow_pos two_pos _

theorem nearestDigits_neg (q : ℚ) : nearestDigits (-q) = -nearestDigits q := by
  have hodd : roundEven (-(q / lastDigit q)) = -roundEven (q / lastDigit q) := by
    rw [roundEven_eq_iff]
    have hnear := nearest_roundEven (q / lastDigit q)
    unfold Nearest at *
    rwa [Int.cast_neg, neg_sub_neg, abs_sub_comm, even_neg]
  have hunit : lastDigit (-q) = lastDigit q := by rw [lastDigit, abs_neg, lastDigit]
  rw [nearestDigits, hunit, neg_div, hodd, Int.cast_neg, neg_mul, nearestDigits]

/-- A whole number of units that is not greater stays so. -/
theorem le_nearestDigits {m : ℤ} (h : m * lastDigit q ≤ q) : m * lastDigit q ≤ nearestDigits q := by
  have hpos := lastDigit_pos q
  have hm : m ≤ roundEven (q / lastDigit q) := by
    simpa using roundEven_mono ((le_div_iff₀ hpos).2 h)
  exact mul_le_mul_of_nonneg_right (Int.cast_le.2 hm) hpos.le

theorem nearestDigits_le {m : ℤ} (h : q ≤ m * lastDigit q) : nearestDigits q ≤ m * lastDigit q := by
  have hpos := lastDigit_pos q
  have hm := roundEven_le_of_le ((div_le_iff₀ hpos).2 h)
  exact mul_le_mul_of_nonneg_right (Int.cast_le.2 hm) hpos.le

theorem nearestDigits_nonneg (h : 0 ≤ q) : 0 ≤ nearestDigits q := by
  simpa using le_nearestDigits (q := q) (m := 0) (by simpa using h)

/-- A power of two is a whole number of units of a number that does not lie above it. -/
theorem exists_units {e : ℤ} (he : max (Int.log 2 |q| - 52) (-1074) ≤ e) :
    ∃ m : ℤ, (2 : ℚ) ^ e = m * lastDigit q := by
  obtain ⟨n, hn⟩ := Int.eq_ofNat_of_zero_le (sub_nonneg.2 he)
  refine ⟨2 ^ n, ?_⟩
  rw [lastDigit, Int.cast_pow, Int.cast_ofNat, ← zpow_natCast, ← zpow_add₀ two_ne_zero, ← hn,
    sub_add_cancel]

theorem nearestDigits_mono_of_nonneg (hp : 0 ≤ p) (h : p ≤ q) :
    nearestDigits p ≤ nearestDigits q := by
  rcases hp.eq_or_lt with rfl | hp
  · rw [show nearestDigits 0 = 0 by simp [nearestDigits]]
    exact nearestDigits_nonneg h
  have hq := hp.trans_le h
  have hlog : Int.log 2 |p| ≤ Int.log 2 |q| := by
    rw [abs_of_pos hp, abs_of_pos hq]
    exact Int.log_mono_right hp h
  by_cases hunit : max (Int.log 2 |p| - 52) (-1074) = max (Int.log 2 |q| - 52) (-1074)
  · -- the same units
    have hunit : lastDigit p = lastDigit q := congrArg (2 ^ ·) hunit
    have hpos := (lastDigit_pos q).le
    rw [nearestDigits, nearestDigits, hunit]
    exact mul_le_mul_of_nonneg_right
      (Int.cast_le.2 (roundEven_mono (div_le_div_of_nonneg_right h hpos))) hpos
  · -- a power of two lies between the numbers, and is a whole number of units of both
    have hlt : Int.log 2 |p| < Int.log 2 |q| := by omega
    have hlow : p < 2 ^ Int.log 2 |q| := by
      rw [abs_of_pos hp, abs_of_pos hq] at *
      exact (Int.lt_zpow_iff_log_lt one_lt_two hp).2 hlt
    have hhigh : (2 : ℚ) ^ Int.log 2 |q| ≤ q := by
      rw [abs_of_pos hq]
      exact Int.zpow_log_le_self one_lt_two hq
    obtain ⟨m, hm⟩ := exists_units (q := p) (e := Int.log 2 |q|) (by omega)
    obtain ⟨n, hn⟩ := exists_units (q := q) (e := Int.log 2 |q|) (by omega)
    calc nearestDigits p ≤ m * lastDigit p := nearestDigits_le (hm ▸ hlow.le)
      _ = n * lastDigit q := hm.symm.trans hn
      _ ≤ nearestDigits q := le_nearestDigits (hn ▸ hhigh)

theorem nearestDigits_mono : Monotone nearestDigits := by
  intro p q h
  rcases le_total 0 p with hp | hp
  · exact nearestDigits_mono_of_nonneg hp h
  have hneg : ∀ {r : ℚ}, r ≤ 0 → nearestDigits r ≤ 0 := by
    intro r hr
    have := nearestDigits_nonneg (neg_nonneg.2 hr)
    rwa [nearestDigits_neg, neg_nonneg] at this
  rcases le_total 0 q with hq | hq
  · exact (hneg hp).trans (nearestDigits_nonneg hq)
  · have := nearestDigits_mono_of_nonneg (neg_nonneg.2 hq) (neg_le_neg h)
    rwa [nearestDigits_neg, nearestDigits_neg, neg_le_neg_iff] at this

/-- A whole multiple of a power of two that lies above the last digit is not rounded. -/
theorem nearestDigits_eq {k e : ℤ} (hq : q = k * 2 ^ e)
    (he : max (Int.log 2 |q| - 52) (-1074) ≤ e) : nearestDigits q = q := by
  obtain ⟨m, hm⟩ := exists_units he
  have hunits : q = (k * m : ℤ) * lastDigit q := by
    rw [Int.cast_mul, mul_assoc, ← hm, ← hq]
  exact le_antisymm ((nearestDigits_le hunits.le).trans hunits.ge)
    (hunits.le.trans (le_nearestDigits hunits.ge))

theorem nearestDigits_natCast {n : ℕ} (h : n ≤ 2 ^ 53) : nearestDigits n = n := by
  rcases n.eq_zero_or_pos with rfl | hn
  · simp [nearestDigits]
  have hpos : (0 : ℚ) < |(n : ℚ)| := abs_pos.2 (Nat.cast_ne_zero.2 hn.ne')
  have habs : |(n : ℚ)| = n := abs_of_nonneg n.cast_nonneg
  rcases h.eq_or_lt with rfl | h
  · have hlog : Int.log 2 |((2 ^ 53 : ℕ) : ℚ)| < 54 := by
      refine (Int.lt_zpow_iff_log_lt one_lt_two hpos).1 ?_
      rw [habs]
      norm_num
    exact nearestDigits_eq (k := 1) (e := 53) (by norm_num) (by omega)
  · have hlog : Int.log 2 |(n : ℚ)| < 53 := by
      refine (Int.lt_zpow_iff_log_lt one_lt_two hpos).1 ?_
      rw [habs]
      exact_mod_cast h
    exact nearestDigits_eq (k := n) (e := 0) (by simp) (by omega)

theorem binary64_ne_nan (q : ℚ) : binary64 q ≠ .nan := by
  unfold binary64
  split_ifs <;> nofun

theorem roundsInOrder_binary64 : PyFloat.RoundsInOrder binary64 where
  mono p q h := by
    have hdigits := nearestDigits_mono h
    by_cases hq : 2 ^ 1024 ≤ nearestDigits q
    · rw [show binary64 q = .posInf from if_pos hq]
      exact PyFloat.le_posInf.2 (binary64_ne_nan p)
    by_cases hp : nearestDigits p ≤ -2 ^ 1024
    · rw [show binary64 p = .negInf by
        rw [binary64, if_neg fun hp => hq (hp.trans hdigits), if_pos hp]]
      exact PyFloat.negInf_le.2 (binary64_ne_nan q)
    · rw [binary64, binary64, if_neg hq, if_neg fun hp => hq (hp.trans hdigits), if_neg hp,
        if_neg fun hq => hp (hdigits.trans hq)]
      exact PyFloat.le_finite.2 hdigits
  ofNat n h := by
    have hn : (n : ℚ) ≤ 2 ^ 53 := by exact_mod_cast h
    have hhigh : (2 : ℚ) ^ 53 < 2 ^ 1024 := pow_lt_pow_right₀ one_lt_two (by norm_num)
    have hlow : -2 ^ 1024 < (n : ℚ) := (neg_neg_of_pos (by positivity)).trans_le n.cast_nonneg
    rw [binary64, nearestDigits_natCast h, if_neg (hn.trans_lt hhigh).not_ge, if_neg hlow.not_ge]

/-- The double `0.1`, and the least whole number that is too large for a double. -/
example : binary64 (1 / 10) = .finite (3602879701896397 / 2 ^ 55) ∧
    binary64 (2 ^ 1024 - 2 ^ 970) = .posInf := by decide +kernel

end Aidars
