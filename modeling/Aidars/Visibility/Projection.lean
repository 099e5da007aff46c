import Aidars.Visibility.Camera
import Aidars.Visibility.Frustum

/-!
# The projection of an orthographic camera

Blender calls an orthographic camera `ORTHO` and the frustum test knows only `ORTHOGRAPHIC`, so the
box of such a camera is compared with the perspective frustum of its lens, and its scale does not
travel at all. `keepsProjection_iff` says for which cameras no box inside the orthographic volume is
called `OUTSIDE`: the picture has to be no wider than the frustum already is at the near plane.
-/

noncomputable section

namespace Aidars.Visibility

namespace BlenderObject

variable (obj : BlenderObject) (render : RenderDict)

/-- Half the width of the picture of an orthographic camera. -/
def orthoHalfWidth : ℝ := obj.data.orthoScale * aspectRatio render / 2

/-- Half the height of the picture of an orthographic camera. -/
def orthoHalfHeight : ℝ := obj.data.orthoScale / 2

/-- Half the height of the picture of the lens at distance one. -/
def openingV : ℝ := obj.opening / max (aspectRatio render) (1 / 10 ^ 6)

/-- The first depth in view. -/
def nearDepth : ℝ := obj.data.clipStart.getD 0

/-- The last depth in view. -/
def farDepth : ℝ := obj.data.clipEnd.getD 0

/-- What the camera sees by its own projection and scale. -/
def orthographicVolume : Set Vec3 :=
  viewVolume { obj.resolved render with
    projectionType := "ORTHOGRAPHIC", orthoScale := obj.data.orthoScale }

/-- The resolved camera sees the orthographic view volume. -/
def GivesVolume : Prop := viewVolume (obj.resolved render) = obj.orthographicVolume render

/-- No box inside the orthographic view volume is called `OUTSIDE`. -/
def KeepsInside : Prop :=
  ∀ bounds : BoundingBox, (∀ p ∈ bounds.corners, p ∈ obj.orthographicVolume render) →
    testFrustum (obj.resolved render) bounds ≠ .outside

variable {obj render}

theorem openingV_pos : 0 < obj.openingV render :=
  div_pos obj.opening_pos (lt_max_of_lt_right (by norm_num))

/-! ## The two volumes -/

/-- The orthographic volume in the space of the camera. -/
theorem mem_orthographicVolume {p : Vec3} : p ∈ obj.orthographicVolume render ↔
    obj.nearDepth ≤ worldToCamSpace (obj.resolved render) p 2 ∧
      worldToCamSpace (obj.resolved render) p 2 ≤ obj.farDepth ∧
      |worldToCamSpace (obj.resolved render) p 0| ≤ obj.orthoHalfWidth render ∧
      |worldToCamSpace (obj.resolved render) p 1| ≤ obj.orthoHalfHeight := by
  rfl

theorem mem_viewVolume_resolved {p : Vec3} : p ∈ viewVolume (obj.resolved render) ↔
    obj.nearDepth ≤ worldToCamSpace (obj.resolved render) p 2 ∧
      worldToCamSpace (obj.resolved render) p 2 ≤ obj.farDepth ∧
      |worldToCamSpace (obj.resolved render) p 0| ≤
        worldToCamSpace (obj.resolved render) p 2 * obj.opening ∧
      |worldToCamSpace (obj.resolved render) p 1| ≤
        worldToCamSpace (obj.resolved render) p 2 * obj.openingV render := by
  rw [viewVolume, Set.mem_ofPred_eq, if_neg (obj.resolved_projectionType_ne render), tan_fovH,
    tan_fovV]
  rfl

theorem worldToCamSpace_resolved (c : Vec3) :
    worldToCamSpace (obj.resolved render) (fromCamSpace (obj.resolved render) c) = c :=
  worldToCamSpace_fromCamSpace (obj.resolved_isOrthonormal render) c

/-- Rectangles about the origin that hold the same points are the same. -/
theorem rectangle_eq {w h a b : ℝ} (hw : 0 ≤ w) (hh : 0 ≤ h)
    (heq : ∀ x y : ℝ, |x| ≤ w ∧ |y| ≤ h ↔ |x| ≤ a ∧ |y| ≤ b) : w = a ∧ h = b := by
  have hcorner := (heq w h).mp (by simp [abs_of_nonneg, hw, hh])
  rw [abs_of_nonneg hw, abs_of_nonneg hh] at hcorner
  have ha : 0 ≤ a := hw.trans hcorner.1
  have hb : 0 ≤ b := hh.trans hcorner.2
  have hback := (heq a b).mpr (by simp [abs_of_nonneg, ha, hb])
  rw [abs_of_nonneg ha, abs_of_nonneg hb] at hback
  exact ⟨le_antisymm hcorner.1 hback.1, le_antisymm hcorner.2 hback.2⟩

theorem GivesVolume.slice (h : obj.GivesVolume render) {z : ℝ} (hnear : obj.nearDepth ≤ z)
    (hfar : z ≤ obj.farDepth) (x y : ℝ) :
    |x| ≤ obj.orthoHalfWidth render ∧ |y| ≤ obj.orthoHalfHeight ↔
      |x| ≤ z * obj.opening ∧ |y| ≤ z * obj.openingV render := by
  have hmem := Set.ext_iff.mp h (fromCamSpace (obj.resolved render) ![x, y, z])
  rw [mem_viewVolume_resolved, mem_orthographicVolume, worldToCamSpace_resolved] at hmem
  simpa [hnear, hfar] using hmem.symm

variable (obj render)

/-- The picture has the same size at the only depth in view, or nothing is in view. -/
def SameVolume : Prop :=
  obj.farDepth < obj.nearDepth ∨ (obj.data.orthoScale < 0 ∧ obj.farDepth < 0) ∨
    (obj.nearDepth = obj.farDepth ∧ obj.orthoHalfWidth render = obj.nearDepth * obj.opening ∧
      obj.orthoHalfHeight = obj.nearDepth * obj.openingV render)

/-- The picture is no larger than the frustum of the lens at the near plane, or it is empty. -/
def FitsNearPlane : Prop :=
  obj.farDepth < obj.nearDepth ∨ obj.data.orthoScale < 0 ∨
    (obj.orthoHalfWidth render ≤ obj.nearDepth * obj.opening + conservativeTolerance ∧
      obj.orthoHalfHeight ≤ obj.nearDepth * obj.openingV render + conservativeTolerance)

variable {obj render}

theorem orthoHalfWidth_nonneg (h : 0 ≤ obj.data.orthoScale) : 0 ≤ obj.orthoHalfWidth render := by
  have := aspectRatio_pos render
  unfold orthoHalfWidth
  positivity

theorem orthoHalfHeight_nonneg (h : 0 ≤ obj.data.orthoScale) : 0 ≤ obj.orthoHalfHeight := by
  unfold orthoHalfHeight
  positivity

/-- When the resolved camera sees the orthographic volume. -/
theorem givesVolume_iff : obj.GivesVolume render ↔ obj.SameVolume render := by
  have hopen := obj.opening_pos
  have hopenV : 0 < obj.openingV render := openingV_pos
  constructor
  · intro h
    by_cases hclip : obj.farDepth < obj.nearDepth
    · exact .inl hclip
    · have hclip' := not_lt.mp hclip
      rcases lt_or_ge obj.data.orthoScale 0 with hneg | hscale
      · refine .inr (.inl ⟨hneg, ?_⟩)
        by_contra! hfar
        have hcenter := (h.slice hclip' le_rfl 0 0).mpr (by simp; constructor <;> positivity)
        have : obj.orthoHalfHeight < 0 := by unfold orthoHalfHeight; linarith
        linarith [abs_nonneg (0 : ℝ), hcenter.2]
      · have hw : 0 ≤ obj.orthoHalfWidth render := orthoHalfWidth_nonneg hscale
        have hh := orthoHalfHeight_nonneg hscale
        have hstart := rectangle_eq hw hh (h.slice le_rfl hclip')
        have hend := rectangle_eq hw hh (h.slice hclip' le_rfl)
        have hdepth : obj.nearDepth = obj.farDepth :=
          mul_right_cancel₀ hopen.ne' (hstart.1.symm.trans hend.1)
        exact .inr (.inr ⟨hdepth, hstart⟩)
  · intro h
    refine Set.ext fun p => ?_
    rw [mem_viewVolume_resolved, mem_orthographicVolume]
    generalize worldToCamSpace (obj.resolved render) p = c
    rcases h with hclip | ⟨hneg, hfar⟩ | ⟨hdepth, hw, hh⟩
    · constructor <;> rintro ⟨hlow, hhigh, -⟩ <;> linarith
    · constructor
      · rintro ⟨-, hhigh, -, hv⟩
        nlinarith [abs_nonneg (c 1)]
      · rintro ⟨-, -, -, hv⟩
        unfold orthoHalfHeight at hv
        linarith [abs_nonneg (c 1)]
    · refine and_congr_right fun hlow => and_congr_right fun hhigh => ?_
      have hz : c 2 = obj.nearDepth := le_antisymm (hdepth ▸ hhigh) hlow
      rw [hz, hw, hh]

/-- A point of the orthographic volume is before no plane of the frustum of a large enough lens. -/
theorem not_beyondPlane (hw : obj.orthoHalfWidth render ≤
      obj.nearDepth * obj.opening + conservativeTolerance)
    (hh : obj.orthoHalfHeight ≤ obj.nearDepth * obj.openingV render + conservativeTolerance)
    {bounds : BoundingBox} {p : Vec3} (hp : p ∈ bounds.corners)
    (hmem : p ∈ obj.orthographicVolume render) : ¬ BeyondPlane (obj.resolved render) bounds := by
  have hopen := obj.opening_pos
  have hopenV : 0 < obj.openingV render := openingV_pos
  have htol : 0 < conservativeTolerance := by norm_num [conservativeTolerance]
  have hcorner := List.mem_map_of_mem (f := worldToCamSpace (obj.resolved render)) hp
  rw [mem_orthographicVolume] at hmem
  unfold BeyondPlane
  rw [tan_fovH, tan_fovV]
  generalize worldToCamSpace (obj.resolved render) p = c at hcorner hmem
  obtain ⟨hlow, hhigh, hx, hy⟩ := hmem
  obtain ⟨hleft, hright⟩ := abs_le.mp hx
  obtain ⟨hdown, hup⟩ := abs_le.mp hy
  -- the frustum only grows with the depth
  have hgrow := mul_le_mul_of_nonneg_right hlow hopen.le
  have hgrowV := mul_le_mul_of_nonneg_right hlow hopenV.le
  change ¬ ((∀ c ∈ _, _ < obj.nearDepth - _) ∨ (∀ c ∈ _, obj.farDepth + _ < _) ∨ _)
  rintro (h | h | h | h | h | h)
  · linarith [h c hcorner]
  · linarith [h c hcorner]
  · linarith [h c hcorner]
  · linarith [h c hcorner]
  · have := h c hcorner
    unfold openingV at *
    linarith
  · have := h c hcorner
    unfold openingV at *
    linarith

theorem exists_lost_box {c : Vec3} (hmem : fromCamSpace (obj.resolved render) c ∈
      obj.orthographicVolume render)
    (hbeyond : c 2 * obj.opening + conservativeTolerance < c 0 ∨
      c 2 * obj.openingV render + conservativeTolerance < c 1) : ¬ obj.KeepsInside render := by
  intro h
  refine h (.fromCorners [fromCamSpace (obj.resolved render) c] true) ?_ ?_
  · intro p hp
    obtain rfl : p = fromCamSpace (obj.resolved render) c := by
      simpa [BoundingBox.fromCorners] using hp
    exact hmem
  · apply testFrustum_of_beyondPlane (obj.resolved_projectionType_ne render)
    unfold BeyondPlane
    rw [tan_fovH, tan_fovV]
    have hcorners : (BoundingBox.fromCorners [fromCamSpace (obj.resolved render) c]
        true).corners.map (worldToCamSpace (obj.resolved render)) = [c] := by
      simp [BoundingBox.fromCorners, worldToCamSpace_resolved]
    rw [hcorners]
    simp only [List.mem_singleton, forall_eq]
    rcases hbeyond with hside | htop
    · exact .inr (.inr (.inr (.inl hside)))
    · exact .inr (.inr (.inr (.inr (.inr htop))))

/-- When no box inside the orthographic volume is lost. -/
theorem keepsInside_iff : obj.KeepsInside render ↔ obj.FitsNearPlane render := by
  constructor
  · intro h
    by_contra hfits
    simp only [FitsNearPlane, not_or, not_lt, not_and_or, not_le] at hfits
    obtain ⟨hclip, hscale, hlarge⟩ := hfits
    have hw : 0 ≤ obj.orthoHalfWidth render := orthoHalfWidth_nonneg hscale
    have hh := orthoHalfHeight_nonneg hscale
    rcases hlarge with hwide | hhigh
    · refine exists_lost_box (c := ![obj.orthoHalfWidth render, 0, obj.nearDepth]) ?_
        (.inl hwide) h
      rw [mem_orthographicVolume, worldToCamSpace_resolved]
      simp [hclip, hh, abs_of_nonneg hw]
    · refine exists_lost_box (c := ![0, obj.orthoHalfHeight, obj.nearDepth]) ?_ (.inr hhigh) h
      rw [mem_orthographicVolume, worldToCamSpace_resolved]
      simp [hclip, hw, abs_of_nonneg hh]
  · intro h bounds hin
    obtain ⟨p, hp⟩ := List.exists_mem_of_ne_nil _ bounds.corners_ne_nil
    have hmem := hin p hp
    rcases h with hclip | hneg | ⟨hw, hh⟩
    · obtain ⟨hlow, hhigh, -⟩ := mem_orthographicVolume.mp hmem
      linarith
    · obtain ⟨-, -, -, hy⟩ := mem_orthographicVolume.mp hmem
      unfold orthoHalfHeight at hy
      linarith [abs_nonneg (worldToCamSpace (obj.resolved render) p 1)]
    · exact (testFrustum_perspective (obj.resolved_projectionType_ne render)
        (not_beyondPlane hw hh hp hmem)).1

/-- **When an orthographic camera keeps its projection.** The resolved camera sees the orthographic
view volume only where the clip range is empty or a single depth at which the lens happens to give
the same picture. No box inside that volume is called `OUTSIDE` exactly if the volume is empty or
its picture is no larger than the frustum of the lens already is at the near plane. -/
theorem keepsProjection_iff (obj : BlenderObject) (render : RenderDict)
    (_hortho : obj.data.type = .ortho) :
    (obj.GivesVolume render ↔ obj.SameVolume render) ∧
      (obj.KeepsInside render ↔ obj.FitsNearPlane render) :=
  ⟨givesVolume_iff, keepsInside_iff⟩

/-! ### A cube to the right of an orthographic camera -/

/-- An orthographic camera with the settings that Blender gives to a new one, ten units before the
origin. -/
def newCamera : BlenderObject where
  location := ![0, -10, 0]
  rotationEuler := ![Real.pi / 2, 0, 0]
  data := { type := .ortho, lens := some 50, sensorWidth := some 36, clipStart := some 0.1,
            clipEnd := some 1000, orthoScale := 6 }

theorem keepsProjection_iff_newCamera :
    (newCamera.GivesVolume {} ↔ newCamera.SameVolume {}) ∧
      (newCamera.KeepsInside {} ↔ newCamera.FitsNearPlane {}) :=
  keepsProjection_iff newCamera {} rfl

theorem worldToCamSpace_newCamera (p : Vec3) :
    worldToCamSpace (newCamera.resolved {}) p = ![p 0, p 2, p 1 + 10] := by
  ext i
  fin_cases i <;> simp [worldToCamSpace, CameraModel.along, newCamera, rotationBasis]

theorem aspectRatio_default : aspectRatio {} = 16 / 9 := by
  norm_num [aspectRatio]

theorem opening_newCamera_le : newCamera.opening ≤ 2 / 5 := by
  refine max_le ?_ ((min_le_right _ _).trans ?_)
  · have hcos := Real.one_sub_sq_div_two_le_cos (x := 1 / 10 ^ 4 / 2)
    have hsin := Real.sin_le (x := 1 / 10 ^ 4 / 2) (by norm_num)
    rw [Real.tan_eq_sin_div_cos, div_le_iff₀ (by linarith)]
    linarith
  · norm_num [newCamera]

/-- A unit cube that stands a little to the right of where the camera looks. -/
def sideCube : BoundingBox :=
  .fromCorners (cornersBetween ![4.3, -0.5, -0.5] ![5.3, 0.5, 0.5]) true

theorem sideCube_mem {p : Vec3} (hp : p ∈ sideCube.corners) :
    (4.3 ≤ p 0 ∧ p 0 ≤ 5.3) ∧ (-0.5 ≤ p 1 ∧ p 1 ≤ 0.5) ∧ -0.5 ≤ p 2 ∧ p 2 ≤ 0.5 := by
  have hp : p ∈ cornersBetween ![4.3, -0.5, -0.5] ![5.3, 0.5, 0.5] := by
    simpa [sideCube, BoundingBox.fromCorners, cornersBetween] using hp
  simp only [cornersBetween, List.mem_cons, List.not_mem_nil, or_false] at hp
  rcases hp with rfl | rfl | rfl | rfl | rfl | rfl | rfl | rfl <;> simp only [Matrix.cons_val] <;>
    norm_num

/-- The whole cube is in the orthographic view of the camera, and it is culled. -/
theorem sideCube_lost : ¬ ∀ (obj : BlenderObject) (render : RenderDict),
    obj.data.type = .ortho → obj.GivesVolume render ∧ obj.KeepsInside render := by
  intro h
  refine (h newCamera {} rfl).2 sideCube ?_ ?_
  · intro p hp
    obtain ⟨⟨hx, hx'⟩, ⟨hy, hy'⟩, hz, hz'⟩ := sideCube_mem hp
    rw [mem_orthographicVolume, worldToCamSpace_newCamera, orthoHalfWidth, aspectRatio_default]
    simp only [Matrix.cons_val, abs_le, nearDepth, farDepth, orthoHalfHeight, newCamera,
      Option.getD_some]
    norm_num at *
    refine ⟨?_, ?_, ⟨?_, ?_⟩, ?_, ?_⟩ <;> linarith
  · apply testFrustum_of_beyondPlane (newCamera.resolved_projectionType_ne {})
    refine .inr (.inr (.inr (.inl ?_)))
    rw [tan_fovH]
    intro c hc
    obtain ⟨p, hp, rfl⟩ := List.mem_map.mp hc
    obtain ⟨⟨hx, hx'⟩, ⟨hy, hy'⟩, -⟩ := sideCube_mem hp
    have hopen := opening_newCamera_le
    have hpos := newCamera.opening_pos
    rw [worldToCamSpace_newCamera]
    simp only [Matrix.cons_val, conservativeTolerance]
    norm_num at *
    nlinarith

end BlenderObject

end Aidars.Visibility

end
