import Aidars.Visibility.Geometry
import Mathlib.Analysis.SpecialFunctions.Trigonometric.Bounds

/-!
# What the frustum test reports

The frustum test reports `OUTSIDE` only for boxes that the camera cannot see. For the others it
tells `INSIDE` from `INTERSECTING` by a loop over the corners, which in perspective exchanges the
height and the depth of a corner. `frustum_test_iff` says when the verdict is right all the same.
-/

noncomputable section

namespace Aidars.Visibility

variable (camera : CameraModel) (bounds : BoundingBox)

/-- A corner in the space of the camera satisfies the clip range and the side conditions. -/
def CornerInside (c : Vec3) : Prop :=
  (camera.clipStart - conservativeTolerance ≤ c 2 ∧ c 2 ≤ camera.clipEnd + conservativeTolerance) ∧
    if camera.projectionType = "ORTHOGRAPHIC" then
      |c 0| ≤ camera.orthoScale * camera.aspectRatio / 2 + conservativeTolerance ∧
        |c 1| ≤ camera.orthoScale / 2 + conservativeTolerance
    else |c 0| ≤ c 2 * Real.tan (camera.fovH / 2) ∧ |c 1| ≤ c 2 * Real.tan (camera.fovV / 2)

/-- A corner with height and depth exchanged. -/
def exchanged (c : Vec3) : Vec3 := ![c 0, c 2, c 1]

/-- All corners of a box lie before the near plane, beyond the far plane, or beyond the same side of
a perspective camera. -/
def BeyondPlane : Prop :=
  let corners := bounds.corners.map (worldToCamSpace camera)
  let tanH := Real.tan (camera.fovH / 2)
  let tanV := Real.tan (camera.fovV / 2)
  (∀ c ∈ corners, c 2 < camera.clipStart - conservativeTolerance) ∨
    (∀ c ∈ corners, camera.clipEnd + conservativeTolerance < c 2) ∨
    (∀ c ∈ corners, c 0 < -c 2 * tanH - conservativeTolerance) ∨
    (∀ c ∈ corners, c 2 * tanH + conservativeTolerance < c 0) ∨
    (∀ c ∈ corners, c 1 < -c 2 * tanV - conservativeTolerance) ∨
    ∀ c ∈ corners, c 2 * tanV + conservativeTolerance < c 1

/-- What a verdict should say: nothing of the hull of an `OUTSIDE` box is in view, and of the other
boxes those are `INSIDE` whose corners all are. -/
structure FrustumTestCorrect : Prop where
  sound : testFrustum camera bounds = .outside →
    Disjoint (convexHull ℝ {p | p ∈ bounds.corners}) (viewVolume camera)
  inside : testFrustum camera bounds ≠ .outside →
    (testFrustum camera bounds = .inside ↔
      ∀ c ∈ bounds.corners.map (worldToCamSpace camera), CornerInside camera c)

variable {camera bounds}

/-- The orthographic test compares each coordinate with its own limit. -/
theorem testFrustum_orthographic (hortho : camera.projectionType = "ORTHOGRAPHIC")
    (h : testFrustum camera bounds ≠ .outside) :
    testFrustum camera bounds = .inside ↔
      ∀ c ∈ bounds.corners.map (worldToCamSpace camera), CornerInside camera c := by
  have hcorner : ∀ c, CornerInside camera c ↔
      (camera.clipStart - conservativeTolerance ≤ c 2 ∧
        c 2 ≤ camera.clipEnd + conservativeTolerance) ∧
      (-(camera.orthoScale * camera.aspectRatio / 2 + conservativeTolerance) ≤ c 0 ∧
        c 0 ≤ camera.orthoScale * camera.aspectRatio / 2 + conservativeTolerance) ∧
      (-(camera.orthoScale / 2 + conservativeTolerance) ≤ c 1 ∧
        c 1 ≤ camera.orthoScale / 2 + conservativeTolerance) := fun c => by
    rw [CornerInside, if_pos hortho, abs_le, abs_le]
  simp only [hcorner, forall_and]
  unfold testFrustum at h ⊢
  dsimp only at h ⊢
  rw [if_pos hortho] at h ⊢
  simp only [forall_and] at h ⊢
  split_ifs at h ⊢ with h1 h2 h3 hin
  · exact absurd rfl h
  · exact absurd rfl h
  · exact absurd rfl h
  · exact iff_of_true rfl hin
  · exact iff_of_false (by simp) hin

/-- The loop of the perspective test exchanges height and depth. -/
theorem cornerInside_exchanged (hortho : camera.projectionType ≠ "ORTHOGRAPHIC") (c : Vec3) :
    CornerInside camera (exchanged c) ↔
      camera.clipStart - conservativeTolerance ≤ c 1 ∧
      c 1 ≤ camera.clipEnd + conservativeTolerance ∧
      -c 1 * Real.tan (camera.fovH / 2) ≤ c 0 ∧ c 0 ≤ c 1 * Real.tan (camera.fovH / 2) ∧
      -c 1 * Real.tan (camera.fovV / 2) ≤ c 2 ∧ c 2 ≤ c 1 * Real.tan (camera.fovV / 2) := by
  rw [CornerInside, if_neg hortho, abs_le, abs_le, neg_mul, neg_mul]
  simp only [exchanged, Matrix.cons_val]
  tauto

theorem testFrustum_of_beyondPlane (hortho : camera.projectionType ≠ "ORTHOGRAPHIC")
    (h : BeyondPlane camera bounds) : testFrustum camera bounds = .outside := by
  unfold BeyondPlane at h
  unfold testFrustum
  dsimp only at h ⊢
  rw [if_neg hortho]
  split_ifs
  all_goals first | rfl | (exfalso; tauto)

/-- The verdicts on the other boxes. -/
theorem testFrustum_perspective (hortho : camera.projectionType ≠ "ORTHOGRAPHIC")
    (h : ¬ BeyondPlane camera bounds) :
    testFrustum camera bounds ≠ .outside ∧
    (testFrustum camera bounds = .inside ↔
      ∀ c ∈ bounds.corners.map (worldToCamSpace camera), CornerInside camera (exchanged c)) := by
  simp only [BeyondPlane, not_or] at h
  obtain ⟨hnear, hfar, hleft, hright, hlow, hhigh⟩ := h
  simp only [cornerInside_exchanged hortho]
  unfold testFrustum
  dsimp only
  rw [if_neg hortho, if_neg (not_or.mpr ⟨hnear, hfar⟩), if_neg hleft, if_neg hright, if_neg hlow,
    if_neg hhigh]
  split_ifs with hin
  · exact ⟨by simp, iff_of_true rfl hin⟩
  · exact ⟨by simp, iff_of_false (by simp) hin⟩

/-- **When the frustum test is right.** What it calls `OUTSIDE` never is in view. Its verdict on the
other boxes is right iff the camera is orthographic, or height and depth of all corners can be
exchanged without a change of whether all of them are inside. -/
theorem frustum_test_iff (camera : CameraModel) (bounds : BoundingBox) :
    FrustumTestCorrect camera bounds ↔
      camera.projectionType = "ORTHOGRAPHIC" ∨ BeyondPlane camera bounds ∨
      ((∀ c ∈ bounds.corners.map (worldToCamSpace camera), CornerInside camera (exchanged c)) ↔
        ∀ c ∈ bounds.corners.map (worldToCamSpace camera), CornerInside camera c) := by
  by_cases hortho : camera.projectionType = "ORTHOGRAPHIC"
  · exact iff_of_true ⟨disjoint_viewVolume, testFrustum_orthographic hortho⟩ (.inl hortho)
  · by_cases hbeyond : BeyondPlane camera bounds
    · refine iff_of_true ⟨disjoint_viewVolume, fun h => ?_⟩ (.inr (.inl hbeyond))
      exact absurd (testFrustum_of_beyondPlane hortho hbeyond) h
    · obtain ⟨hinside, hverdict⟩ := testFrustum_perspective hortho hbeyond
      constructor
      · intro hcorrect
        exact .inr (.inr (hverdict.symm.trans (hcorrect.inside hinside)))
      · rintro (h | h | h)
        · exact absurd h hortho
        · exact absurd h hbeyond
        · exact ⟨disjoint_viewVolume, fun _ => hverdict.trans h⟩

theorem not_beyondPlane_of_inside (hortho : camera.projectionType ≠ "ORTHOGRAPHIC")
    (hin : ∀ c ∈ bounds.corners.map (worldToCamSpace camera), CornerInside camera c) :
    ¬ BeyondPlane camera bounds := by
  obtain ⟨p, hp⟩ := List.exists_mem_of_ne_nil _ bounds.corners_ne_nil
  have hmem := List.mem_map_of_mem (f := worldToCamSpace camera) hp
  generalize worldToCamSpace camera p = c at hmem
  have hc := hin c hmem
  rw [CornerInside, if_neg hortho, abs_le, abs_le] at hc
  have htol : 0 < conservativeTolerance := by norm_num [conservativeTolerance]
  obtain ⟨⟨hnear, hfar⟩, ⟨hleft, hright⟩, hlow, hhigh⟩ := hc
  rintro (h | h | h | h | h | h) <;> linarith [h c hmem]

/-- A camera that sees less than half a right angle above its axis calls every box intersecting that
is inside. -/
theorem intersecting_of_inside (hortho : camera.projectionType ≠ "ORTHOGRAPHIC")
    (hnear : conservativeTolerance < camera.clipStart) (hopen : Real.tan (camera.fovV / 2) < 1)
    (hin : ∀ c ∈ bounds.corners.map (worldToCamSpace camera), CornerInside camera c) :
    testFrustum camera bounds = .intersecting := by
  obtain ⟨hnot, hverdict⟩ :=
    testFrustum_perspective hortho (not_beyondPlane_of_inside hortho hin)
  have hexchanged : testFrustum camera bounds ≠ .inside := by
    intro hinside
    obtain ⟨p, hp⟩ := List.exists_mem_of_ne_nil _ bounds.corners_ne_nil
    have hc := hin _ (List.mem_map_of_mem hp)
    have hc' := hverdict.mp hinside _ (List.mem_map_of_mem hp)
    rw [cornerInside_exchanged hortho] at hc'
    rw [CornerInside, if_neg hortho] at hc
    -- the height is below the depth, and the depth below the height
    have hheight := (abs_le.mp hc.2.2).2
    have hdepth := hc'.2.2.2.2.2
    nlinarith [hc.1.1, hc'.1]
  cases hresult : testFrustum camera bounds with
  | outside => exact absurd hresult hnot
  | intersecting => rfl
  | inside => exact absurd hresult hexchanged

/-! ### A cube before a camera -/

/-- The space of the default camera, which stands ten units before the origin. -/
theorem worldToCamSpace_default (p : Vec3) : worldToCamSpace {} p = ![p 0, p 2, p 1 + 10] := by
  ext i
  fin_cases i <;> simp [worldToCamSpace, CameraModel.along]

/-- Points near the origin are inside its view. -/
theorem cornerInside_default {p : Vec3} (hx : |p 0| ≤ 1 / 2) (hy : |p 1| ≤ 1 / 2)
    (hz : |p 2| ≤ 1 / 2) : CornerInside {} (worldToCamSpace {} p) := by
  obtain ⟨hfront, hback⟩ := abs_le.mp hy
  have hwide : 1 / 4 < Real.tan (60 * Real.pi / 180 / 2) := by
    refine lt_trans ?_ (Real.lt_tan (by positivity) (by linarith [Real.pi_pos]))
    linarith [Real.two_le_pi]
  have hhigh : 1 / 8 < Real.tan (36 * Real.pi / 180 / 2) := by
    refine lt_trans ?_ (Real.lt_tan (by positivity) (by linarith [Real.pi_pos]))
    linarith [Real.two_le_pi]
  rw [worldToCamSpace_default, CornerInside, if_neg (by decide)]
  simp only [Matrix.cons_val, conservativeTolerance]
  refine ⟨⟨by linarith, by linarith⟩, ?_, ?_⟩
  · nlinarith
  · nlinarith

/-- The unit cube reaches half a unit in each direction. -/
theorem abs_le_half {p : Vec3} (hp : p ∈ defaultCorners) (i : Fin 3) : |p i| ≤ 1 / 2 := by
  have hhalf : p i = -1 / 2 ∨ p i = 1 / 2 := by
    simp only [defaultCorners, cornersBetween, List.mem_cons, List.not_mem_nil, or_false] at hp
    rcases hp with rfl | rfl | rfl | rfl | rfl | rfl | rfl | rfl
    all_goals fin_cases i <;> first | exact .inl rfl | exact .inr rfl
  rcases hhalf with h | h <;> norm_num [h, abs_le]

/-- The unit cube ten units before the default camera is inside its view, and the test does not say
so. -/
theorem cube_not_inside : ¬ ∀ camera bounds, FrustumTestCorrect camera bounds := by
  intro h
  have hcorrect := h {} (.fromCorners defaultCorners true)
  have hin : ∀ c ∈ defaultCorners.map (worldToCamSpace {}), CornerInside {} c := by
    intro c hc
    obtain ⟨p, hp, rfl⟩ := List.mem_map.mp hc
    exact cornerInside_default (abs_le_half hp 0) (abs_le_half hp 1) (abs_le_half hp 2)
  have hopen : Real.tan (36 * Real.pi / 180 / 2) < 1 := by
    rw [← Real.tan_pi_div_four]
    refine Real.tan_lt_tan_of_lt_of_lt_pi_div_two ?_ ?_ ?_ <;> linarith [Real.pi_pos]
  have hverdict : testFrustum {} (.fromCorners defaultCorners true) = .intersecting :=
    intersecting_of_inside (by decide) (by norm_num [conservativeTolerance]) hopen hin
  have hinside := (hcorrect.inside (by simp [hverdict])).mpr hin
  rw [hverdict] at hinside
  cases hinside

end Aidars.Visibility

end
