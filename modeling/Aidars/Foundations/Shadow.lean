import Mathlib.Analysis.Convex.Hull
import Mathlib.Tactic.Module
import Mathlib.Tactic.LinearCombination
import Mathlib.Tactic.FieldSimp
import Mathlib.Tactic.Linarith

/-!
# Shadows

What a body hides from an eye. A point is in the shadow of a body when the segment from the eye to
it meets the body strictly between the two. The shadow of a convex body is convex
(`convex_shadow`), so a convex body that hides the corners of a polytope hides the polytope
(`convexHull_subset_shadow`).
-/

namespace Aidars

variable {𝕜 E : Type*} [Field 𝕜] [LinearOrder 𝕜] [IsStrictOrderedRing 𝕜] [AddCommGroup E]
  [Module 𝕜 E]

/-- The points that `body` hides from `eye`. -/
def shadow (𝕜 : Type*) {E : Type*} [Field 𝕜] [LinearOrder 𝕜] [AddCommGroup E] [Module 𝕜 E]
    (eye : E) (body : Set E) : Set E :=
  {p | ∃ t : 𝕜, 0 < t ∧ t < 1 ∧ eye + t • (p - eye) ∈ body}

variable {eye p : E} {body other : Set E}

omit [IsStrictOrderedRing 𝕜] in
/-- A larger body has a larger shadow. -/
theorem shadow_mono (h : body ⊆ other) : shadow 𝕜 eye body ⊆ shadow 𝕜 eye other := by
  rintro p ⟨t, hpos, hlt, hmem⟩
  exact ⟨t, hpos, hlt, h hmem⟩

omit [LinearOrder 𝕜] [IsStrictOrderedRing 𝕜] in
/-- The weights with which the two points on the way to `p` and `q` make the one on the way to
`a • p + b • q`. -/
theorem combine_towards {q : E} {a b s t α β γ : 𝕜} (hγ : γ * (α + β) = 1) (hα : α * s = a)
    (hβ : β * t = b) (hab : a + b = 1) :
    eye + γ • (a • p + b • q - eye) =
      (α * γ) • (eye + s • (p - eye)) + (β * γ) • (eye + t • (q - eye)) := by
  subst hα hβ
  match_scalars
  · linear_combination (-1 : 𝕜) * hγ + γ * hab
  · ring
  · ring

/-- **The shadow of a convex body is convex.** -/
theorem convex_shadow (hbody : Convex 𝕜 body) : Convex 𝕜 (shadow 𝕜 eye body) := by
  rintro p ⟨s, hs0, hs1, hs⟩ q ⟨t, ht0, ht1, ht⟩ a b ha hb hab
  -- the point of the body on the way to `a • p + b • q` weighs the two given points of the body
  -- by `a / s` and `b / t`
  have hsum : 1 < a / s + b / t := by
    have hp : a ≤ a / s := by
      rw [le_div_iff₀ hs0]
      exact mul_le_of_le_one_right ha hs1.le
    have hq : b ≤ b / t := by
      rw [le_div_iff₀ ht0]
      exact mul_le_of_le_one_right hb ht1.le
    rcases ha.eq_or_lt with rfl | hapos
    · have hb1 : b = 1 := by linear_combination hab
      have hqlt : b < b / t := by
        rw [lt_div_iff₀ ht0, hb1, one_mul]
        exact ht1
      linarith
    · have hplt : a < a / s := by
        rw [lt_div_iff₀ hs0]
        exact mul_lt_of_lt_one_right hapos hs1
      linarith
  have hpos : 0 < a / s + b / t := one_pos.trans hsum
  refine ⟨(a / s + b / t)⁻¹, inv_pos.mpr hpos, inv_lt_one_of_one_lt₀ hsum, ?_⟩
  have hmem := hbody hs ht
    (div_nonneg (div_nonneg ha hs0.le) hpos.le) (div_nonneg (div_nonneg hb ht0.le) hpos.le)
    (by rw [← add_div, div_self hpos.ne'])
  rw [div_eq_mul_inv (a / s), div_eq_mul_inv (b / t)] at hmem
  rwa [← combine_towards (inv_mul_cancel₀ hpos.ne') (div_mul_cancel₀ a hs0.ne')
    (div_mul_cancel₀ b ht0.ne') hab] at hmem

/-- **A convex body that hides some points hides all of their convex hull.** -/
theorem convexHull_subset_shadow (hbody : Convex 𝕜 body) {corners : Set E}
    (h : corners ⊆ shadow 𝕜 eye body) : convexHull 𝕜 corners ⊆ shadow 𝕜 eye body :=
  convexHull_min h (convex_shadow hbody)

end Aidars
