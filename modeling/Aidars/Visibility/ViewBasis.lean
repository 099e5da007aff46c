import Aidars.Visibility.Camera

/-!
# The axes of a camera are a frame

However a camera is placed, its axes are orthonormal and right-handed: to the right, upwards, and
against the direction of the view.

A turned camera has the axes of an unturned one, rotated (`rotationBasis_isFrame`). For a camera
that looks in a direction, the reference that the right axis is made from is never near the
direction (`crossLength_gt`), so neither of the axes falls back to its default, and the cross
products complete the direction to a frame (`directionBasis_isFrame`).
-/

noncomputable section

namespace Aidars.Visibility

open Matrix

/-! ## Vectors of length one -/

theorem vecLength_eq (v : Vec3) : vecLength v = √(v ⬝ᵥ v) := by
  rw [vecLength, vec3_dotProduct]

/-- A vector that is not too short has length one afterwards. -/
theorem normalizeOr_of_lt {v : Vec3} (h : 1 / 10 ^ 9 < vecLength v) (default : Vec3) :
    normalizeOr v default = (vecLength v)⁻¹ • v := by
  rw [normalizeOr, if_pos h]
  ext i
  fin_cases i <;> simp [div_eq_inv_mul]

theorem dot_normalizeOr_of_lt {v : Vec3} (h : 1 / 10 ^ 9 < vecLength v) (default : Vec3) :
    normalizeOr v default ⬝ᵥ normalizeOr v default = 1 := by
  have hpos : 0 < vecLength v := lt_trans (by norm_num) h
  have hnonneg : 0 ≤ v ⬝ᵥ v := by
    rw [vec3_dotProduct]
    linarith [mul_self_nonneg (v 0), mul_self_nonneg (v 1), mul_self_nonneg (v 2)]
  have hsq : vecLength v * vecLength v = v ⬝ᵥ v := by
    rw [vecLength_eq, Real.mul_self_sqrt hnonneg]
  rw [normalizeOr_of_lt h, smul_dotProduct, dotProduct_smul, ← hsq, smul_eq_mul, smul_eq_mul]
  field_simp

theorem dot_normalizeOr (v : Vec3) {default : Vec3} (h : default ⬝ᵥ default = 1) :
    normalizeOr v default ⬝ᵥ normalizeOr v default = 1 := by
  by_cases hlong : 1 / 10 ^ 9 < vecLength v
  · exact dot_normalizeOr_of_lt hlong default
  · rwa [normalizeOr, if_neg hlong]

/-- A vector of length one stays as it is. -/
theorem normalizeOr_of_dot_eq_one {v : Vec3} (h : v ⬝ᵥ v = 1) (default : Vec3) :
    normalizeOr v default = v := by
  have hlength : vecLength v = 1 := by rw [vecLength_eq, h, Real.sqrt_one]
  rw [normalizeOr_of_lt (by rw [hlength]; norm_num), hlength, inv_one, one_smul]

/-! ## A camera that looks in a direction -/

/-- What the right axis is made from, next to the direction. -/
def upReference (dir : Vec3) : Vec3 := if |dir 2| < 0.999 then ![0, 0, 1] else ![0, 1, 0]

theorem directionBasis_eq (dir : Vec3) : directionBasis dir =
    let right := normalizeOr (dir ⨯₃ upReference dir) ![1, 0, 0]
    { right
      up := normalizeOr (right ⨯₃ dir) ![0, 1, 0]
      dir } := rfl

/-- Neither reference is near a direction for which it is taken. -/
theorem crossLength_gt {dir : Vec3} (h : dir ⬝ᵥ dir = 1) :
    1 / 10 ^ 9 < vecLength (dir ⨯₃ upReference dir) := by
  have hsum : dir 0 ^ 2 + dir 1 ^ 2 + dir 2 ^ 2 = 1 := by
    rw [vec3_dotProduct] at h
    linear_combination h
  have hsq : 0.001 < dir ⨯₃ upReference dir ⬝ᵥ dir ⨯₃ upReference dir := by
    rw [upReference]
    split
    case isTrue hflat =>
      -- the part of the direction that is not upwards
      have hup : dir 2 ^ 2 < 0.999 ^ 2 := by
        rw [← sq_abs]
        exact pow_lt_pow_left₀ hflat (abs_nonneg _) two_ne_zero
      simp only [cross_apply, vec3_dotProduct, cons_val]
      nlinarith [hsum, hup]
    case isFalse hsteep =>
      -- all but what is along the second axis
      have hup : 0.999 ^ 2 ≤ dir 2 ^ 2 := by
        rw [← sq_abs (dir 2)]
        exact pow_le_pow_left₀ (by norm_num) (not_lt.mp hsteep) 2
      simp only [cross_apply, vec3_dotProduct, cons_val]
      nlinarith [hsum, hup, sq_nonneg (dir 0)]
  rw [vecLength_eq]
  apply Real.lt_sqrt_of_sq_lt
  exact lt_trans (by norm_num) hsq

theorem directionBasis_isFrame {dir : Vec3} (h : dir ⬝ᵥ dir = 1) :
    IsFrame (directionBasis dir).right (directionBasis dir).up (-(directionBasis dir).dir) := by
  have hlong := crossLength_gt h
  have hright : normalizeOr (dir ⨯₃ upReference dir) ![1, 0, 0] ⬝ᵥ
      normalizeOr (dir ⨯₃ upReference dir) ![1, 0, 0] = 1 := dot_normalizeOr_of_lt hlong _
  have hflat : normalizeOr (dir ⨯₃ upReference dir) ![1, 0, 0] ⬝ᵥ dir = 0 := by
    rw [normalizeOr_of_lt hlong, smul_dotProduct, dotProduct_comm, dot_self_cross, smul_zero]
  have hframe := isFrame_cross_neg hright h hflat
  simp only [directionBasis_eq]
  rw [normalizeOr_of_dot_eq_one hframe.yy]
  exact hframe

/-! ## All cameras -/

theorem computeViewBasis_isFrame (loc rot : Vec3) (direction lookAt : Option Vec3) :
    IsFrame (computeViewBasis loc rot direction lookAt).right
      (computeViewBasis loc rot direction lookAt).up
      (-(computeViewBasis loc rot direction lookAt).dir) := by
  have hdefault : (![0, 1, 0] : Vec3) ⬝ᵥ ![0, 1, 0] = 1 := by simp
  match lookAt, direction with
  | some target, _ => exact directionBasis_isFrame (dot_normalizeOr _ hdefault)
  | none, some direction => exact directionBasis_isFrame (dot_normalizeOr _ hdefault)
  | none, none => exact rotationBasis_isFrame rot

/-- **The axes of a camera.** For every place, rotation, direction and point looked at, they are
orthonormal and right-handed; those of a turned camera are turned like the corners of objects; and
otherwise the camera looks in the direction that is asked for, if that is not too short. -/
theorem computeViewBasis_axes (loc rot : Vec3) (direction lookAt : Option Vec3) :
    ((computeViewBasis loc rot direction lookAt).IsOrthonormal ∧
      (computeViewBasis loc rot direction lookAt).right ⨯₃
        (computeViewBasis loc rot direction lookAt).up =
          -(computeViewBasis loc rot direction lookAt).dir) ∧
    (lookAt = none → direction = none →
      (computeViewBasis loc rot direction lookAt).right = rotateEuler ![1, 0, 0] rot ∧
      (computeViewBasis loc rot direction lookAt).up = rotateEuler ![0, 1, 0] rot ∧
      (computeViewBasis loc rot direction lookAt).dir = rotateEuler ![0, 0, -1] rot) ∧
    (∀ target, lookAt = some target → 1 / 10 ^ 9 < vecLength (target - loc) →
      (computeViewBasis loc rot direction lookAt).dir =
        (vecLength (target - loc))⁻¹ • (target - loc)) ∧
    ∀ v, lookAt = none → direction = some v → 1 / 10 ^ 9 < vecLength v →
      (computeViewBasis loc rot direction lookAt).dir = (vecLength v)⁻¹ • v := by
  have hframe := computeViewBasis_isFrame loc rot direction lookAt
  refine ⟨⟨ViewBasis.isOrthonormal_of_isFrame hframe, hframe.cross⟩, ?_, ?_, ?_⟩
  · rintro rfl rfl
    have hbasis : computeViewBasis loc rot none none = rotationBasis rot := rfl
    rw [hbasis, rotationBasis_eq]
    exact ⟨rfl, rfl, rfl⟩
  · rintro target rfl hlong
    have hsub : ![target 0 - loc 0, target 1 - loc 1, target 2 - loc 2] = target - loc := by
      ext i
      fin_cases i <;> rfl
    have hdir : (computeViewBasis loc rot direction (some target)).dir =
        normalizeOr ![target 0 - loc 0, target 1 - loc 1, target 2 - loc 2] ![0, 1, 0] := rfl
    rw [hdir, hsub]
    exact normalizeOr_of_lt hlong _
  · rintro v rfl rfl hlong
    exact normalizeOr_of_lt hlong _

end Aidars.Visibility

end
