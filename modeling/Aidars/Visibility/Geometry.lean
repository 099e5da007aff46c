import Aidars.Foundations.Clipping
import Aidars.Foundations.Shadow
import Mathlib.Analysis.SpecialFunctions.Trigonometric.Basic
import Mathlib.Data.Fin.VecNotation
import Mathlib.Analysis.Convex.Basic
import Mathlib.Algebra.Order.Pi
import Mathlib.Order.CompletePartialOrder

/-!
# Boxes, frusta and rays

The geometry of culling, over the real numbers. `computeWorldBounds` places the corners of an
object in the world, `testFrustum` compares them with the planes of a camera, and `testOcclusion`
sends nine rays to a box and asks whether nearer boxes stop them.

A box that fails the frustum test lies outside the view volume (`disjoint_viewVolume`): each plane
has one side, which is convex. A ray that hits a box passes a point of the box on its way, unless
the direction is nearly parallel to a face (`mem_shadow_of_hit`).
-/

noncomputable section

namespace Aidars.Visibility

/-! ## Vectors -/

-- the numerals of these modules share their instances
scoped instance atLeastTwo_two : Nat.AtLeastTwo 2 := ⟨le_rfl⟩
scoped instance atLeastTwo_six : Nat.AtLeastTwo 6 := ⟨by decide⟩
scoped instance atLeastTwo_ten : Nat.AtLeastTwo 10 := ⟨by decide⟩
scoped instance atLeastTwo_thirtySix : Nat.AtLeastTwo 36 := ⟨by decide⟩
scoped instance atLeastTwo_fifty : Nat.AtLeastTwo 50 := ⟨by decide⟩
scoped instance atLeastTwo_thousand : Nat.AtLeastTwo 1000 := ⟨by decide⟩
scoped instance neZero_three : NeZero 3 := ⟨by decide⟩

/-- A point of the world. -/
abbrev Vec3 := Fin 3 → ℝ

/-- The coordinates that a dictionary gives. `none` stands where no number does. -/
abbrev RawPoint := List (Option ℝ)

/-- The point that the first three coordinates make. -/
def parsePoint : RawPoint → Option Vec3
  | some x :: some y :: some z :: _ => some ![x, y, z]
  | _ => none

/-- A vector of a dictionary, or the default. -/
def parseVec3 (val : RawPoint) (default : Vec3) : Vec3 :=
  (parsePoint val).getD default

/-- Scale a point along the axes. -/
def scaled (pt scale : Vec3) : Vec3 :=
  ![pt 0 * scale 0, pt 1 * scale 1, pt 2 * scale 2]

/-- Rotate a vector about the axes `x`, `y` and `z` in turn. -/
def rotateEuler (v rot : Vec3) : Vec3 :=
  let x1 := v 0
  let y1 := v 1 * Real.cos (rot 0) - v 2 * Real.sin (rot 0)
  let z1 := v 1 * Real.sin (rot 0) + v 2 * Real.cos (rot 0)
  let x2 := x1 * Real.cos (rot 1) + z1 * Real.sin (rot 1)
  let y2 := y1
  let z2 := -x1 * Real.sin (rot 1) + z1 * Real.cos (rot 1)
  ![x2 * Real.cos (rot 2) - y2 * Real.sin (rot 2),
    x2 * Real.sin (rot 2) + y2 * Real.cos (rot 2), z2]

/-! ## Bounding boxes -/

/-- The corners of the box between two points. -/
def cornersBetween (b0 b1 : Vec3) : List Vec3 :=
  [![b0 0, b0 1, b0 2], ![b0 0, b0 1, b1 2], ![b0 0, b1 1, b0 2], ![b0 0, b1 1, b1 2],
    ![b1 0, b0 1, b0 2], ![b1 0, b0 1, b1 2], ![b1 0, b1 1, b0 2], ![b1 0, b1 1, b1 2]]

/-- The corners that the data of a bounding box give: two points span a box, eight are its
corners. -/
def parseCorners : List RawPoint → Option (List Vec3)
  | [b0, b1] => do return cornersBetween (← parsePoint b0) (← parsePoint b1)
  | boundBox => if boundBox.length = 8 then boundBox.mapM parsePoint else none

/-- The corners of the unit cube. -/
def defaultCorners : List Vec3 :=
  cornersBetween ![-1 / 2, -1 / 2, -1 / 2] ![1 / 2, 1 / 2, 1 / 2]

/-- The corners of an object, or those of the unit cube. -/
def getLocalCorners (boundBox : Option (List RawPoint)) : List Vec3 :=
  (boundBox.bind parseCorners).getD defaultCorners

/-- A box along the axes that holds the corners of an object. -/
structure BoundingBox where
  minPt : Vec3
  maxPt : Vec3
  corners : List Vec3
  isSolidOpaque : Bool
  corners_ne_nil : corners ≠ []
  corners_mem : ∀ p ∈ corners, p ∈ Set.Icc minPt maxPt

/-- The box that holds some corners. -/
def BoundingBox.fromCorners (corners : List Vec3) (isSolidOpaque : Bool) : BoundingBox :=
  let corners := if corners = [] then
    [![-1 / 2, -1 / 2, -1 / 2], ![1 / 2, 1 / 2, 1 / 2]] else corners
  have hne : corners ≠ [] := by grind
  { minPt := fun i => (corners.map (· i)).min (by simpa using hne)
    maxPt := fun i => (corners.map (· i)).max (by simpa using hne)
    corners, isSolidOpaque
    corners_ne_nil := hne
    corners_mem := fun p hp =>
      ⟨fun i => List.min_le_of_mem (List.mem_map_of_mem (f := fun q : Vec3 => q i) hp),
        fun i => List.le_max_of_mem (List.mem_map_of_mem (f := fun q : Vec3 => q i) hp)⟩ }

theorem BoundingBox.minPt_le_maxPt (b : BoundingBox) : b.minPt ≤ b.maxPt := by
  obtain ⟨p, hp⟩ := List.exists_mem_of_ne_nil b.corners b.corners_ne_nil
  exact (b.corners_mem p hp).1.trans (b.corners_mem p hp).2

/-- The placement of an object. -/
structure TransformDict where
  location : Option RawPoint := none
  rotationEuler : Option RawPoint := none
  rotation : Option RawPoint := none
  scale : Option RawPoint := none

/-- A corner of an object in the world. -/
def TransformDict.apply (transform : TransformDict) (pt : Vec3) : Vec3 :=
  let loc := parseVec3 (transform.location.getD [some 0, some 0, some 0]) ![0, 0, 0]
  let rot := parseVec3
    (transform.rotationEuler.getD (transform.rotation.getD [some 0, some 0, some 0])) ![0, 0, 0]
  let scale := parseVec3 (transform.scale.getD [some 1, some 1, some 1]) ![1, 1, 1]
  rotateEuler (scaled pt scale) rot + loc

/-! ## Cameras -/

/-- What culling reads of a camera. -/
structure CameraModel where
  location : Vec3 := ![0, -10, 0]
  fovH : ℝ := 60 * Real.pi / 180
  fovV : ℝ := 36 * Real.pi / 180
  clipStart : ℝ := 0.1
  clipEnd : ℝ := 1000
  projectionType : String := "PERSPECTIVE"
  orthoScale : ℝ := 6
  aspectRatio : ℝ := 1.7777777777777777
  rightVec : Vec3 := ![1, 0, 0]
  upVec : Vec3 := ![0, 0, 1]
  dirVec : Vec3 := ![0, 1, 0]

variable (camera : CameraModel)

/-- The coordinate of a point along an axis of the camera. -/
def CameraModel.along (axis p : Vec3) : ℝ :=
  (p 0 - camera.location 0) * axis 0 + (p 1 - camera.location 1) * axis 1 +
    (p 2 - camera.location 2) * axis 2

/-- A point in the space of the camera: to the right, upwards and in its direction. -/
def worldToCamSpace (p : Vec3) : Vec3 :=
  ![camera.along camera.rightVec p, camera.along camera.upVec p, camera.along camera.dirVec p]

@[simp] theorem worldToCamSpace_zero (p : Vec3) :
    worldToCamSpace camera p 0 = camera.along camera.rightVec p := rfl

@[simp] theorem worldToCamSpace_one (p : Vec3) :
    worldToCamSpace camera p 1 = camera.along camera.upVec p := rfl

@[simp] theorem worldToCamSpace_two (p : Vec3) :
    worldToCamSpace camera p 2 = camera.along camera.dirVec p := rfl

/-! ## The frustum test -/

/-- The verdicts of the frustum test. -/
inductive CullingResult
  | outside
  | intersecting
  | inside
  deriving DecidableEq

/-- How far beyond a plane corners have to be. -/
def conservativeTolerance : ℝ := 1 / 10 ^ 4

/-- Test a box against the frustum of a camera. -/
def testFrustum (bounds : BoundingBox) : CullingResult :=
  let camCorners := bounds.corners.map (worldToCamSpace camera)
  let near := camera.clipStart - conservativeTolerance
  let far := camera.clipEnd + conservativeTolerance
  if camera.projectionType = "ORTHOGRAPHIC" then
    let halfW := camera.orthoScale * camera.aspectRatio / 2 + conservativeTolerance
    let halfH := camera.orthoScale / 2 + conservativeTolerance
    if (∀ c ∈ camCorners, c 2 < near) ∨ (∀ c ∈ camCorners, far < c 2) then .outside
    else if (∀ c ∈ camCorners, c 0 < -halfW) ∨ (∀ c ∈ camCorners, halfW < c 0) then .outside
    else if (∀ c ∈ camCorners, c 1 < -halfH) ∨ (∀ c ∈ camCorners, halfH < c 1) then .outside
    else if (∀ c ∈ camCorners, near ≤ c 2 ∧ c 2 ≤ far) ∧
        (∀ c ∈ camCorners, -halfW ≤ c 0 ∧ c 0 ≤ halfW) ∧
        (∀ c ∈ camCorners, -halfH ≤ c 1 ∧ c 1 ≤ halfH) then .inside
    else .intersecting
  else
    let tanH := Real.tan (camera.fovH / 2)
    let tanV := Real.tan (camera.fovV / 2)
    if (∀ c ∈ camCorners, c 2 < near) ∨ (∀ c ∈ camCorners, far < c 2) then .outside
    else if ∀ c ∈ camCorners, c 0 < -c 2 * tanH - conservativeTolerance then .outside
    else if ∀ c ∈ camCorners, c 2 * tanH + conservativeTolerance < c 0 then .outside
    else if ∀ c ∈ camCorners, c 1 < -c 2 * tanV - conservativeTolerance then .outside
    else if ∀ c ∈ camCorners, c 2 * tanV + conservativeTolerance < c 1 then .outside
    -- the loop names the upward coordinate `z` and the depth `y`
    else if ∀ c ∈ camCorners, near ≤ c 1 ∧ c 1 ≤ far ∧
        -c 1 * tanH ≤ c 0 ∧ c 0 ≤ c 1 * tanH ∧ -c 1 * tanV ≤ c 2 ∧ c 2 ≤ c 1 * tanV then .inside
    else .intersecting

/-- What a camera sees when nothing is in the way. -/
def viewVolume : Set Vec3 :=
  {p | camera.clipStart ≤ camera.along camera.dirVec p ∧
    camera.along camera.dirVec p ≤ camera.clipEnd ∧
    if camera.projectionType = "ORTHOGRAPHIC" then
      |camera.along camera.rightVec p| ≤ camera.orthoScale * camera.aspectRatio / 2 ∧
        |camera.along camera.upVec p| ≤ camera.orthoScale / 2
    else
      |camera.along camera.rightVec p| ≤
          camera.along camera.dirVec p * Real.tan (camera.fovH / 2) ∧
        |camera.along camera.upVec p| ≤ camera.along camera.dirVec p * Real.tan (camera.fovV / 2)}

/-! ### The sides of planes -/

/-- A function that commutes with weighted means. -/
def IsAffine (f : Vec3 → ℝ) : Prop :=
  ∀ (p q : Vec3) (a b : ℝ), a + b = 1 → f (a • p + b • q) = a * f p + b * f q

theorem isAffine_along (axis : Vec3) : IsAffine (camera.along axis) := by
  intro p q a b hab
  obtain rfl : b = 1 - a := by linear_combination hab
  simp only [CameraModel.along, Pi.add_apply, Pi.smul_apply, smul_eq_mul]
  ring

theorem IsAffine.combine {f g : Vec3 → ℝ} (hf : IsAffine f) (hg : IsAffine g) (k l : ℝ) :
    IsAffine fun p => k * f p + l * g p := by
  intro p q a b hab
  simp only [hf p q a b hab, hg p q a b hab]
  ring

/-- Points that lie on one side of a plane have their hull there. -/
theorem IsAffine.lt_of_mem_convexHull {f : Vec3 → ℝ} (hf : IsAffine f) {c : ℝ} {s : Set Vec3}
    (h : ∀ p ∈ s, f p < c) : ∀ p ∈ convexHull ℝ s, f p < c := by
  have hconvex : Convex ℝ {p | f p < c} := by
    intro p hp q hq a b ha hb hab
    rw [Set.mem_ofPred_eq, hf p q a b hab]
    exact convex_Iio c hp hq ha hb hab
  exact fun p hp => convexHull_min h hconvex hp

/-- A plane that has some corners on one side and the view volume on the other. -/
structure Separates (corners : List Vec3) (f : Vec3 → ℝ) (c : ℝ) : Prop where
  affine : IsAffine f
  corners_lt : ∀ p ∈ corners, f p < c
  le_view : ∀ p ∈ viewVolume camera, c ≤ f p

variable {camera} {bounds : BoundingBox} {f g : Vec3 → ℝ}

/-- Such a plane across two axes of the camera. -/
theorem Separates.of_combine (hf : IsAffine f) (hg : IsAffine g) (k l c : ℝ)
    (hlt : ∀ p ∈ bounds.corners, k * f p + l * g p < c)
    (hview : ∀ p ∈ viewVolume camera, c ≤ k * f p + l * g p) :
    ∃ f c, Separates camera bounds.corners f c :=
  ⟨_, c, hf.combine hg k l, hlt, hview⟩

/-- All corners before the near plane or all beyond the far plane. -/
theorem exists_separates_depth
    (h : (∀ p ∈ bounds.corners,
          camera.along camera.dirVec p < camera.clipStart - conservativeTolerance) ∨
        ∀ p ∈ bounds.corners,
          camera.clipEnd + conservativeTolerance < camera.along camera.dirVec p) :
    ∃ f c, Separates camera bounds.corners f c := by
  have hz := isAffine_along camera camera.dirVec
  have htol : 0 < conservativeTolerance := by norm_num [conservativeTolerance]
  rcases h with hnear | hfar
  · refine Separates.of_combine hz hz 1 0 (camera.clipStart - conservativeTolerance) ?_ ?_
    · intro p hp
      linarith [hnear p hp]
    · intro p hview
      linarith [hview.1]
  · refine Separates.of_combine hz hz (-1) 0 (-(camera.clipEnd + conservativeTolerance)) ?_ ?_
    · intro p hp
      linarith [hfar p hp]
    · intro p hview
      linarith [hview.2.1]

/-- All corners beyond the same side of a frustum with a half opening of `k` times the depth plus
`w` across an axis of the camera. -/
theorem exists_separates_side (axis : Vec3) (k w : ℝ)
    (hview : ∀ p ∈ viewVolume camera,
      |camera.along axis p| ≤ k * camera.along camera.dirVec p + w)
    (h : (∀ p ∈ bounds.corners, camera.along axis p <
          -(k * camera.along camera.dirVec p + w) - conservativeTolerance) ∨
        ∀ p ∈ bounds.corners,
          k * camera.along camera.dirVec p + w + conservativeTolerance < camera.along axis p) :
    ∃ f c, Separates camera bounds.corners f c := by
  have hx := isAffine_along camera axis
  have hz := isAffine_along camera camera.dirVec
  have htol : 0 < conservativeTolerance := by norm_num [conservativeTolerance]
  rcases h with hlow | hhigh
  · refine Separates.of_combine hx hz 1 k (-w - conservativeTolerance) ?_ ?_
    · intro p hp
      linarith [hlow p hp]
    · intro p hp
      linarith [(abs_le.mp (hview p hp)).1]
  · refine Separates.of_combine hx hz (-1) k (-w - conservativeTolerance) ?_ ?_
    · intro p hp
      linarith [hhigh p hp]
    · intro p hp
      linarith [(abs_le.mp (hview p hp)).2]

theorem viewVolume_orthographic (h : camera.projectionType = "ORTHOGRAPHIC") {p : Vec3}
    (hp : p ∈ viewVolume camera) :
    |camera.along camera.rightVec p| ≤ camera.orthoScale * camera.aspectRatio / 2 ∧
      |camera.along camera.upVec p| ≤ camera.orthoScale / 2 := by
  have := hp.2.2
  rwa [if_pos h] at this

theorem viewVolume_perspective (h : camera.projectionType ≠ "ORTHOGRAPHIC") {p : Vec3}
    (hp : p ∈ viewVolume camera) :
    |camera.along camera.rightVec p| ≤
        camera.along camera.dirVec p * Real.tan (camera.fovH / 2) ∧
      |camera.along camera.upVec p| ≤
        camera.along camera.dirVec p * Real.tan (camera.fovV / 2) := by
  have := hp.2.2
  rwa [if_neg h] at this

/-- A box that fails the frustum test lies beyond one of the planes. -/
theorem exists_separates (h : testFrustum camera bounds = .outside) :
    ∃ f c, Separates camera bounds.corners f c := by
  simp only [testFrustum, List.forall_mem_map, worldToCamSpace_zero, worldToCamSpace_one,
    worldToCamSpace_two] at h
  by_cases hortho : camera.projectionType = "ORTHOGRAPHIC"
  · rw [if_pos hortho] at h
    split_ifs at h with hdepth hwide hhigh
    · exact exists_separates_depth hdepth
    · apply exists_separates_side camera.rightVec 0 (camera.orthoScale * camera.aspectRatio / 2)
      · intro p hp
        linarith [(viewVolume_orthographic hortho hp).1]
      · refine hwide.imp (fun hs p hp => ?_) (fun hs p hp => ?_) <;> linarith [hs p hp]
    · apply exists_separates_side camera.upVec 0 (camera.orthoScale / 2)
      · intro p hp
        linarith [(viewVolume_orthographic hortho hp).2]
      · refine hhigh.imp (fun hs p hp => ?_) (fun hs p hp => ?_) <;> linarith [hs p hp]
  · rw [if_neg hortho] at h
    have hright : ∀ p ∈ viewVolume camera, |camera.along camera.rightVec p| ≤
        Real.tan (camera.fovH / 2) * camera.along camera.dirVec p + 0 := fun p hp => by
      linarith [(viewVolume_perspective hortho hp).1]
    have hup : ∀ p ∈ viewVolume camera, |camera.along camera.upVec p| ≤
        Real.tan (camera.fovV / 2) * camera.along camera.dirVec p + 0 := fun p hp => by
      linarith [(viewVolume_perspective hortho hp).2]
    split_ifs at h with hdepth hs hs hs hs
    · exact exists_separates_depth hdepth
    · exact exists_separates_side _ _ _ hright (.inl fun p hp => by linarith [hs p hp])
    · exact exists_separates_side _ _ _ hright (.inr fun p hp => by linarith [hs p hp])
    · exact exists_separates_side _ _ _ hup (.inl fun p hp => by linarith [hs p hp])
    · exact exists_separates_side _ _ _ hup (.inr fun p hp => by linarith [hs p hp])

/-- **A box that fails the frustum test lies outside the view volume.** -/
theorem disjoint_viewVolume (h : testFrustum camera bounds = .outside) :
    Disjoint (convexHull ℝ {p | p ∈ bounds.corners}) (viewVolume camera) := by
  obtain ⟨f, c, hf⟩ := exists_separates h
  rw [Set.disjoint_left]
  intro p hp hview
  exact absurd (hf.affine.lt_of_mem_convexHull hf.corners_lt p hp) (hf.le_view p hview).not_gt

/-! ## The occlusion test -/

/-- A point lies in the box between two points. -/
def PointInAabb (pt bMin bMax : Vec3) : Prop :=
  (bMin 0 ≤ pt 0 ∧ pt 0 ≤ bMax 0) ∧ (bMin 1 ≤ pt 1 ∧ pt 1 ≤ bMax 1) ∧
    (bMin 2 ≤ pt 2 ∧ pt 2 ≤ bMax 2)

/-- Cut the range of a ray down to what lies between the two faces of a box across an axis. A ray
that is nearly parallel to them is taken for parallel. -/
def cutSlab (origin direction aabbMin aabbMax : Vec3) (range : ℝ × ℝ) (i : Fin 3) :
    Option (ℝ × ℝ) :=
  if |direction i| < 1e-9 then
    if origin i < aabbMin i ∨ aabbMax i < origin i then none else some range
  else
    let t1 := (aabbMin i - origin i) * (1 / direction i)
    let t2 := (aabbMax i - origin i) * (1 / direction i)
    let (t1, t2) := if t2 < t1 then (t2, t1) else (t1, t2)
    let tMin := max range.1 t1
    let tMax := min range.2 t2
    if tMax < tMin then none else some (tMin, tMax)

/-- Where a ray meets a box. -/
def rayIntersectsAabb (origin direction aabbMin aabbMax : Vec3) : Option ℝ := do
  let (tMin, tMax) ← [0, 1, 2].foldlM (cutSlab origin direction aabbMin aabbMax) (-1e30, 1e30)
  if tMax ≤ 1e-4 then none
  else
    let hitT := if 1e-4 < tMin then tMin else tMax
    if 1e-4 < hitT then some hitT else none

/-- The distance of a point. -/
def distTo (eye sp : Vec3) : ℝ :=
  √((sp 0 - eye 0) * (sp 0 - eye 0) + (sp 1 - eye 1) * (sp 1 - eye 1) +
    (sp 2 - eye 2) * (sp 2 - eye 2))

/-- The direction of a point. -/
def rayDir (eye sp : Vec3) : Vec3 :=
  ![(sp 0 - eye 0) / distTo eye sp, (sp 1 - eye 1) / distTo eye sp, (sp 2 - eye 2) / distTo eye sp]

/-- A box stops the ray to a point. -/
def Stops (eye sp : Vec3) (blocker : BoundingBox) : Prop :=
  blocker.isSolidOpaque = true ∧ ¬PointInAabb eye blocker.minPt blocker.maxPt ∧
    ∃ hitT, rayIntersectsAabb eye (rayDir eye sp) blocker.minPt blocker.maxPt = some hitT ∧
      1e-4 < hitT ∧ hitT < distTo eye sp - 1e-4

/-- The points that the rays go to: the centre of the corners, and the corners. -/
def samplePoints (bounds : BoundingBox) : List Vec3 :=
  (fun i => (bounds.corners.map (· i)).sum / bounds.corners.length) :: bounds.corners

/-- Some blocker stops each of the rays. -/
def TestOcclusion (bounds : BoundingBox) (camera : CameraModel)
    (opaqueBlockers : List BoundingBox) : Prop :=
  opaqueBlockers ≠ [] ∧
    ∀ sp ∈ samplePoints bounds, ¬distTo camera.location sp < 1e-6 ∧
      ∃ blocker ∈ opaqueBlockers, Stops camera.location sp blocker

/-! ### Rays and shadows -/

variable {origin direction aabbMin aabbMax eye sp : Vec3} {range range' : ℝ × ℝ} {i : Fin 3}

/-- The directions that are not taken for parallel to a face unless they are. -/
def Steep (direction : Vec3) : Prop :=
  ∀ i, direction i = 0 ∨ 1e-9 ≤ |direction i|

/-- The points of a ray in a range lie between the two faces across an axis. -/
def Between (origin direction aabbMin aabbMax : Vec3) (range : ℝ × ℝ) (i : Fin 3) : Prop :=
  ∀ t, range.1 ≤ t → t ≤ range.2 →
    aabbMin i ≤ origin i + t * direction i ∧ origin i + t * direction i ≤ aabbMax i

theorem sorted_pair (a b : ℝ) : (if b < a then (b, a) else (a, b)) = (min a b, max a b) := by
  split
  case isTrue h => rw [min_eq_right h.le, max_eq_left h.le]
  case isFalse h => rw [min_eq_left (not_lt.mp h), max_eq_right (not_lt.mp h)]

/-- What a cut does: nothing to a ray that runs between the faces, and otherwise it keeps what lies
between the two points where the ray crosses them. -/
theorem cutSlab_cases (h : cutSlab origin direction aabbMin aabbMax range i = some range') :
    (|direction i| < 1e-9 ∧ (aabbMin i ≤ origin i ∧ origin i ≤ aabbMax i) ∧ range' = range) ∨
    (1e-9 ≤ |direction i| ∧ range'.1 ≤ range'.2 ∧
      range'.1 = max range.1 (min ((aabbMin i - origin i) / direction i)
        ((aabbMax i - origin i) / direction i)) ∧
      range'.2 = min range.2 (max ((aabbMin i - origin i) / direction i)
        ((aabbMax i - origin i) / direction i))) := by
  simp only [cutSlab, sorted_pair, mul_one_div] at h
  split_ifs at h with hparallel hout hempty
  · obtain rfl := Option.some.inj h
    rw [not_or, not_lt, not_lt] at hout
    exact .inl ⟨hparallel, hout, rfl⟩
  · obtain rfl := Option.some.inj h
    exact .inr ⟨not_lt.mp hparallel, not_lt.mp hempty, rfl, rfl⟩

theorem cutSlab_le (h : cutSlab origin direction aabbMin aabbMax range i = some range')
    (hrange : range.1 ≤ range.2) :
    range.1 ≤ range'.1 ∧ range'.1 ≤ range'.2 ∧ range'.2 ≤ range.2 := by
  rcases cutSlab_cases h with ⟨-, -, rfl⟩ | ⟨-, hle, hmin, hmax⟩
  · exact ⟨le_rfl, hrange, le_rfl⟩
  · exact ⟨hmin ▸ le_max_left _ _, hle, hmax ▸ min_le_left _ _⟩

theorem cutSlab_between (hbox : aabbMin i ≤ aabbMax i) (hsteep : Steep direction)
    (h : cutSlab origin direction aabbMin aabbMax range i = some range') :
    Between origin direction aabbMin aabbMax range' i := by
  intro t hlow hhigh
  rcases cutSlab_cases h with ⟨hparallel, hinside, -⟩ | ⟨hbig, -, hmin, hmax⟩
  · have hzero : direction i = 0 := (hsteep i).resolve_right (not_le.mpr hparallel)
    rwa [hzero, mul_zero, add_zero]
  · have hne : direction i ≠ 0 := abs_pos.mp (lt_of_lt_of_le (by norm_num) hbig)
    have hlow' := (le_max_right _ _).trans (hmin ▸ hlow)
    have hhigh' := (hmax ▸ hhigh).trans (min_le_right _ _)
    exact (between_iff hne hbox t).mpr ⟨hlow', hhigh'⟩

/-- A smaller range lies between the faces where a larger one does. -/
theorem Between.mono (h : Between origin direction aabbMin aabbMax range i)
    (hlow : range.1 ≤ range'.1) (hhigh : range'.2 ≤ range.2) :
    Between origin direction aabbMin aabbMax range' i :=
  fun t hmin hmax => h t (hlow.trans hmin) (hmax.trans hhigh)

/-- **A ray that meets a box is in the box where it says**, unless its direction is nearly parallel
to a face. -/
theorem mem_box_of_hit (hbox : aabbMin ≤ aabbMax) (hsteep : Steep direction) {hitT : ℝ}
    (h : rayIntersectsAabb origin direction aabbMin aabbMax = some hitT) :
    origin + hitT • direction ∈ Set.Icc aabbMin aabbMax := by
  simp only [rayIntersectsAabb, List.foldlM_cons, List.foldlM_nil, Option.bind_eq_bind,
    Option.bind_eq_some_iff, Option.pure_def] at h
  obtain ⟨range, ⟨rx, hx, ry, hy, rz, hz, hrange⟩, h⟩ := h
  obtain rfl := Option.some.inj hrange
  obtain ⟨-, hx', -⟩ := cutSlab_le hx (by norm_num)
  obtain ⟨hxy, hy', hyx⟩ := cutSlab_le hy hx'
  obtain ⟨hyz, hz', hzy⟩ := cutSlab_le hz hy'
  have hin : rz.1 ≤ hitT ∧ hitT ≤ rz.2 := by
    split_ifs at h with hbehind hnear
    · obtain rfl := Option.some.inj h
      exact ⟨le_rfl, hz'⟩
    · obtain rfl := Option.some.inj h
      exact ⟨hz', le_rfl⟩
  have h0 := ((cutSlab_between (hbox 0) hsteep hx).mono (hxy.trans hyz) (hzy.trans hyx)) hitT
    hin.1 hin.2
  have h1 := ((cutSlab_between (hbox 1) hsteep hy).mono hyz hzy) hitT hin.1 hin.2
  have h2 := cutSlab_between (hbox 2) hsteep hz hitT hin.1 hin.2
  constructor
  · intro j
    fin_cases j
    exacts [h0.1, h1.1, h2.1]
  · intro j
    fin_cases j
    exacts [h0.2, h1.2, h2.2]

theorem mem_shadow_of_stops {blocker : BoundingBox} (hsteep : Steep (rayDir eye sp))
    (h : Stops eye sp blocker) : sp ∈ shadow ℝ eye (Set.Icc blocker.minPt blocker.maxPt) := by
  obtain ⟨-, -, hitT, hhit, hpos, hlt⟩ := h
  have hdist : 0 < distTo eye sp := by linarith
  refine ⟨hitT / distTo eye sp, div_pos (by linarith) hdist, ?_, ?_⟩
  · rw [div_lt_one hdist]
    linarith
  · have hmem := mem_box_of_hit blocker.minPt_le_maxPt hsteep hhit
    convert hmem using 2
    ext j
    fin_cases j <;> simp [rayDir] <;> ring

/-- **One box that stops the rays to all corners hides the whole body.** -/
theorem hull_subset_shadow_of_stops {bounds blocker : BoundingBox}
    (h : ∀ sp ∈ bounds.corners, Steep (rayDir eye sp) ∧ Stops eye sp blocker) :
    convexHull ℝ {p | p ∈ bounds.corners} ⊆
      shadow ℝ eye (Set.Icc blocker.minPt blocker.maxPt) :=
  convexHull_subset_shadow (convex_Icc _ _) fun sp hsp =>
    mem_shadow_of_stops (h sp hsp).1 (h sp hsp).2

end Aidars.Visibility

end
