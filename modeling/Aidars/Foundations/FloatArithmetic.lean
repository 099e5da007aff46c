import Aidars.Foundations.Json
import Mathlib.Data.Rat.Floor

/-!
# Arithmetic of floats

An operation on finite floats computes the exact rational and rounds it; the rounding is an
argument, `round : ℚ → PyFloat`, so that what is proved for every rounding holds of the arithmetic
of the machine, and with `PyFloat.finite` the arithmetic is exact. Infinities and `nan` follow IEEE
arithmetic.
-/

namespace Aidars.PyFloat

variable (round : ℚ → PyFloat)

/-- The sign of a float: `-1`, `0` or `1`. -/
def sign : PyFloat → ℤ
  | finite q => if q < 0 then -1 else if 0 < q then 1 else 0
  | posInf => 1
  | negInf => -1
  | nan => 0

/-- The infinity with a sign. -/
def infinity (s : ℤ) : PyFloat := if s = 0 then nan else if s < 0 then negInf else posInf

/-- The sum of two floats. -/
def add : PyFloat → PyFloat → PyFloat
  | finite a, finite b => round (a + b)
  | nan, _ | _, nan | posInf, negInf | negInf, posInf => nan
  | posInf, _ | _, posInf => posInf
  | negInf, _ | _, negInf => negInf

/-- The negative of a float. -/
def neg : PyFloat → PyFloat
  | finite a => finite (-a)
  | posInf => negInf
  | negInf => posInf
  | nan => nan

/-- The difference of two floats. -/
def sub (a b : PyFloat) : PyFloat := add round a (neg b)

/-- The product of two floats. -/
def mul : PyFloat → PyFloat → PyFloat
  | finite a, finite b => round (a * b)
  | nan, _ | _, nan => nan
  | a, b => infinity (a.sign * b.sign)

/-- The quotient of two floats. A division by zero, which raises, gives `nan`. -/
def div : PyFloat → PyFloat → PyFloat
  | finite a, finite b => if b = 0 then nan else round (a / b)
  | nan, _ | _, nan => nan
  | finite _, _ => finite 0
  | a, finite b => if b = 0 then nan else infinity (a.sign * (finite b).sign)
  | _, _ => nan

/-- The sum of a list, from left to right. -/
def sum (l : List PyFloat) : PyFloat := l.foldl (add round) (finite 0)

/-- The float of an integer. -/
def ofInt (n : ℤ) : PyFloat := round n

/-- `float(n)`, which raises when the integer is too large for a float. -/
def ofInt? (n : ℤ) : Option PyFloat :=
  match ofInt round n with
  | finite q => some (finite q)
  | _ => none

/-- The greater of two floats, the first one unless the second is greater. -/
def max (a b : PyFloat) : PyFloat := if a.lt b then b else a

/-- The greatest integer that is not greater; there is none of an infinity or of `nan`. -/
def floor : PyFloat → Option ℤ
  | finite q => some ⌊q⌋
  | _ => none

/-- The lesser of two floats, the first one unless the second is less. -/
def min (a b : PyFloat) : PyFloat := if b.lt a then b else a

/-! ## Floats that are not negative -/

/-- Rounding gives a number, and does not make it negative. -/
structure Rounds (round : ℚ → PyFloat) : Prop where
  ne_nan : ∀ q, round q ≠ nan
  nonneg : ∀ q, 0 ≤ q → le 0 (round q)

variable {round}

/-- Without rounding arithmetic is exact. -/
theorem rounds_finite : Rounds finite where
  ne_nan _ := nofun
  nonneg q hq := by
    have h : (0 : PyFloat) = finite 0 := rfl
    rcases hq.lt_or_eq with hq | rfl
    · simp [le, lt, h, hq]
    · simp [le, h]

theorem nonneg_iff {a : PyFloat} : le 0 a ↔ (∃ q, a = finite q ∧ 0 ≤ q) ∨ a = posInf := by
  have h : (0 : PyFloat) = finite 0 := rfl
  cases a with
  | finite q => simp [le, lt, h, le_iff_lt_or_eq]
  | posInf => exact iff_of_true rfl (.inr rfl)
  | negInf | nan => exact iff_of_false nofun (by simp)

theorem ne_nan_of_nonneg {a : PyFloat} (h : le 0 a) : a ≠ nan := by
  rintro rfl
  obtain ⟨q, hq, -⟩ | hinf := nonneg_iff.1 h
  · cases hq
  · cases hinf

namespace Rounds

variable {a b : PyFloat}

theorem add (hr : Rounds round) (ha : le 0 a) (hb : le 0 b) : le 0 (add round a b) := by
  obtain ⟨p, rfl, hp⟩ | rfl := nonneg_iff.1 ha <;> obtain ⟨q, rfl, hq⟩ | rfl := nonneg_iff.1 hb
  · exact hr.nonneg _ (add_nonneg hp hq)
  all_goals exact nonneg_iff.2 (.inr rfl)

theorem mul (hr : Rounds round) (ha : le 0 a) {q : ℚ} (hq : 0 < q) :
    le 0 (mul round a (finite q)) := by
  obtain ⟨p, rfl, hp⟩ | rfl := nonneg_iff.1 ha
  · exact hr.nonneg _ (mul_nonneg hp hq.le)
  · refine nonneg_iff.2 (.inr ?_)
    simp [PyFloat.mul, sign, infinity, hq.not_gt, hq]

theorem div (hr : Rounds round) (ha : le 0 a) {q : ℚ} (hq : 0 < q) :
    le 0 (div round a (finite q)) := by
  obtain ⟨p, rfl, hp⟩ | rfl := nonneg_iff.1 ha
  · rw [PyFloat.div, if_neg hq.ne']
    exact hr.nonneg _ (div_nonneg hp hq.le)
  · refine nonneg_iff.2 (.inr ?_)
    simp [PyFloat.div, sign, infinity, hq.ne', hq.not_gt, hq]

end Rounds

theorem eq_of_ofInt? {n : ℤ} {a : PyFloat} (h : ofInt? round n = some a) : a = ofInt round n := by
  unfold ofInt? at h
  split at h
  · rename_i hn
    exact (Option.some.inj h).symm.trans hn.symm
  · cases h

/-- The maximum with zero is not negative, even that of `nan`. -/
theorem nonneg_max (a : PyFloat) : le 0 (max 0 a) := by
  unfold max
  split_ifs with h
  · rw [le, h, Bool.true_or]
  · rfl

theorem nonneg_min {a b : PyFloat} (ha : le 0 a) (hb : le 0 b) : le 0 (min a b) := by
  unfold min
  split_ifs
  · exact hb
  · exact ha

theorem neg_ne_nan {a : PyFloat} (h : a ≠ nan) : neg a ≠ nan := by
  cases a <;> simp_all [neg]

theorem neg_inj {a b : PyFloat} : neg a = neg b ↔ a = b := by
  cases a <;> cases b <;> simp [neg]

/-! ## The order of floats -/

@[simp] theorem lt_finite {p q : ℚ} : lt (finite p) (finite q) ↔ p < q := by
  simp [lt]

@[simp] theorem le_finite {p q : ℚ} : le (finite p) (finite q) ↔ p ≤ q := by
  simp [le, lt, le_iff_lt_or_eq]

@[simp] theorem le_posInf {a : PyFloat} : le a posInf ↔ a ≠ nan := by
  cases a <;> simp [le, lt]

@[simp] theorem negInf_le {a : PyFloat} : le negInf a ↔ a ≠ nan := by
  cases a <;> simp [le, lt]

@[simp] theorem posInf_le {a : PyFloat} : le posInf a ↔ a = posInf := by
  cases a <;> simp [le, lt]

@[simp] theorem le_negInf {a : PyFloat} : le a negInf ↔ a = negInf := by
  cases a <;> simp [le, lt]

theorem add_comm' (a b : PyFloat) : add round a b = add round b a := by
  cases a <;> cases b <;> simp [add, add_comm]

theorem le_refl {a : PyFloat} (h : a ≠ nan) : le a a := by
  simp [le, h]

theorem ne_nan_of_le {a b : PyFloat} (h : le a b) : a ≠ nan ∧ b ≠ nan := by
  cases a <;> cases b <;> simp_all [le, lt]

theorem le_trans {a b c : PyFloat} (hab : le a b) (hbc : le b c) : le a c := by
  cases a <;> cases b <;> cases c <;> simp_all [le, lt, ← le_iff_lt_or_eq]
  exact hab.trans hbc

theorem le_of_not_lt {a b : PyFloat} (ha : a ≠ nan) (hb : b ≠ nan) (h : ¬ a.lt b) : le b a := by
  cases a <;> cases b <;> simp_all [le, lt, ← le_iff_lt_or_eq]

theorem le_of_lt {a b : PyFloat} (h : a.lt b) : le a b := by
  rw [le, h, Bool.true_or]

/-- The minimum with a number is not greater than that number, even that of `nan`. -/
theorem min_le (a : PyFloat) {b : PyFloat} (hb : b ≠ nan) : le (min b a) b := by
  unfold min
  split_ifs with h
  · exact le_of_lt h
  · exact le_refl hb

/-- The maximum with zero keeps the order, and the minimum with a number does. -/
theorem max_mono {a b : PyFloat} (h : le a b) : le (max 0 a) (max 0 b) := by
  obtain ⟨ha, hb⟩ := ne_nan_of_le h
  have h0 : (0 : PyFloat) ≠ nan := nofun
  unfold max
  split_ifs with hna hnb hnb
  · exact h
  · exact le_trans h (le_of_not_lt h0 hb hnb)
  · exact le_of_lt hnb
  · rfl

theorem min_mono {a b c : PyFloat} (hc : c ≠ nan) (h : le a b) : le (min c a) (min c b) := by
  obtain ⟨ha, hb⟩ := ne_nan_of_le h
  unfold min
  split_ifs with hna hnb hnb
  · exact h
  · exact le_of_lt hna
  · exact le_trans (le_of_not_lt ha hc hna) h
  · exact le_refl hc

/-- Rounding keeps the order, and the whole numbers up to `2 ^ 53`. -/
structure RoundsInOrder (round : ℚ → PyFloat) : Prop where
  mono : ∀ p q, p ≤ q → le (round p) (round q)
  ofNat : ∀ n : ℕ, n ≤ 2 ^ 53 → round n = finite n

theorem roundsInOrder_finite : RoundsInOrder finite where
  mono _ _ := le_finite.2
  ofNat _ _ := rfl

namespace RoundsInOrder

variable {a b c d : PyFloat} (hr : RoundsInOrder round)
include hr

theorem rounds : Rounds round where
  ne_nan q := (ne_nan_of_le (hr.mono q q le_rfl)).1
  nonneg q hq := by
    have h := hr.mono 0 q hq
    rwa [show round 0 = 0 from hr.ofNat 0 (Nat.zero_le _)] at h

/-- Adding to both sides keeps the order, as far as the sums are numbers. -/
theorem add_right (hab : le a b) (ha : add round a c ≠ nan) (hb : add round b c ≠ nan) :
    le (add round a c) (add round b c) := by
  have hnum := hr.rounds.ne_nan
  have hne := ne_nan_of_le hab
  rcases a with p | _ | _ | _ <;> rcases b with q | _ | _ | _ <;> rcases c with z | _ | _ | _ <;>
    simp_all [add]
  exact hr.mono _ _ (add_le_add_left hab z)

theorem add_left (hab : le a b) (ha : add round c a ≠ nan) (hb : add round c b ≠ nan) :
    le (add round c a) (add round c b) := by
  rw [add_comm' c a, add_comm' c b] at *
  exact hr.add_right hab ha hb

/-- A sum of numbers that are not negative keeps the order. -/
theorem add_mono (ha : le 0 a) (hc : le 0 c) (hab : le a b) (hcd : le c d) :
    le (add round a c) (add round b d) := by
  have hb := le_trans ha hab
  have hd := le_trans hc hcd
  have hsum : ∀ {x y : PyFloat}, le 0 x → le 0 y → add round x y ≠ nan :=
    fun hx hy => ne_nan_of_nonneg (hr.rounds.add hx hy)
  exact le_trans (hr.add_right hab (hsum ha hc) (hsum hb hc))
    (hr.add_left hcd (hsum hb hc) (hsum hb hd))

theorem mul_mono (ha : le 0 a) (hab : le a b) {q : ℚ} (hq : 0 < q) :
    le (mul round a (finite q)) (mul round b (finite q)) := by
  have hb := hr.rounds.mul (le_trans ha hab) hq
  obtain ⟨x, rfl, hx⟩ | rfl := nonneg_iff.1 ha <;>
    obtain ⟨y, rfl, hy⟩ | rfl := nonneg_iff.1 (le_trans ha hab)
  · exact hr.mono _ _ (mul_le_mul_of_nonneg_right (le_finite.1 hab) hq.le)
  · have : mul round posInf (finite q) = posInf := by simp [mul, infinity, sign, hq, hq.not_gt]
    rw [this, le_posInf]
    exact hr.rounds.ne_nan _
  · cases hab
  · exact le_refl (ne_nan_of_nonneg hb)

theorem div_mono (ha : le 0 a) (hab : le a b) {q : ℚ} (hq : 0 < q) :
    le (div round a (finite q)) (div round b (finite q)) := by
  have hb := hr.rounds.div (le_trans ha hab) hq
  obtain ⟨x, rfl, hx⟩ | rfl := nonneg_iff.1 ha <;>
    obtain ⟨y, rfl, hy⟩ | rfl := nonneg_iff.1 (le_trans ha hab)
  · simp only [div, if_neg hq.ne']
    exact hr.mono _ _ (div_le_div_of_nonneg_right (le_finite.1 hab) hq.le)
  · have : div round posInf (finite q) = posInf := by
      simp [div, infinity, sign, hq, hq.not_gt, hq.ne']
    rw [this, le_posInf]
    exact ne_nan_of_nonneg (hr.rounds.div ha hq)
  · cases hab
  · exact le_refl (ne_nan_of_nonneg hb)

/-- Sums of numbers up to whole bounds are at most the sum of the bounds. -/
theorem add_le {m n : ℕ} (ha : le 0 a) (hb : le 0 b) (ham : le a (finite m)) (hbn : le b (finite n))
    (h : m + n ≤ 2 ^ 53) : le (add round a b) (finite (m + n : ℕ)) := by
  have hm : le (0 : PyFloat) (finite m) := le_trans ha ham
  have hsum := hr.add_mono ha hb ham hbn
  have hround : add round (finite m) (finite n) = round ((m + n : ℕ) : ℚ) := by
    rw [Nat.cast_add]
    rfl
  rwa [hround, hr.ofNat _ h] at hsum

end RoundsInOrder

end Aidars.PyFloat
