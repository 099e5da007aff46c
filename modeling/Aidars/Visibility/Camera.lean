import Aidars.Foundations.Frame
import Aidars.Visibility.Geometry
import Mathlib.Analysis.SpecialFunctions.Trigonometric.Arctan

/-!
# From a camera of Blender to the camera of culling

`extractObject` is the dictionary that the scan of a scene writes for a camera, and `resolveCamera`
makes the camera of culling of such a dictionary: its place, its three axes, its opening angles and
its clip range.

The axes of a rotated camera are those of an unturned one under the rotation that is applied to the
corners of objects (`rotationBasis_eq`). They are orthonormal, so a point can be given by its
coordinates in the space of the camera (`worldToCamSpace_fromCamSpace`). The opening angles come
from the lens, and their tangents from the ratio of sensor and lens (`tan_fovH`, `tan_fovV`).
-/

noncomputable section

namespace Aidars.Visibility

open Matrix

/-! ## Dictionaries -/

/-- A number of a dictionary. `none` stands where the value is no number. -/
abbrev RawNumber := Option ℝ

/-- A number of a dictionary, or the default. -/
def parseNumber (val : Option RawNumber) (default : ℝ) : ℝ := val.join.getD default

/-- A text with its ASCII letters in upper case. -/
def upperCase (s : String) : String := String.ofList (s.toList.map Char.toUpper)

/-- The placement of a camera. -/
structure CameraTransform where
  location : Option RawPoint := none
  rotationEuler : Option RawPoint := none
  rotation : Option RawPoint := none
  direction : Option RawPoint := none
  lookAt : Option RawPoint := none
  target : Option RawPoint := none

/-- The lens and the projection of a camera. -/
structure CameraInfo where
  type : Option String := none
  projectionType : Option String := none
  orthoScale : Option RawNumber := none
  fov : Option RawNumber := none
  lens : Option RawNumber := none
  sensorWidth : Option RawNumber := none
  clipStart : Option RawNumber := none
  near : Option RawNumber := none
  clipEnd : Option RawNumber := none
  far : Option RawNumber := none

/-- A camera. Its placement and its lens may stand in dictionaries of their own. -/
structure CameraDict where
  transform : Option CameraTransform := none
  camera : Option CameraInfo := none
  ownTransform : CameraTransform := {}
  ownInfo : CameraInfo := {}

/-- What a camera reads of the settings of a render. -/
structure RenderDict where
  resolutionX : Option RawNumber := none
  resolutionY : Option RawNumber := none
  clipStart : Option RawNumber := none
  clipEnd : Option RawNumber := none

/-! ## The axes of a camera -/

/-- The right, the upward and the forward axis. -/
structure ViewBasis where
  right : Vec3
  up : Vec3
  dir : Vec3

/-- The length of a vector. -/
def vecLength (v : Vec3) : ℝ := Real.sqrt (v 0 * v 0 + v 1 * v 1 + v 2 * v 2)

/-- A vector at length one, or the default if it is too short. -/
def normalizeOr (v default : Vec3) : Vec3 :=
  if 1 / 10 ^ 9 < vecLength v then
    ![v 0 / vecLength v, v 1 / vecLength v, v 2 / vecLength v] else default

/-- The axes of a camera that is turned. -/
def rotationBasis (rot : Vec3) : ViewBasis :=
  let cx := Real.cos (rot 0)
  let sx := Real.sin (rot 0)
  let cy := Real.cos (rot 1)
  let sy := Real.sin (rot 1)
  let cz := Real.cos (rot 2)
  let sz := Real.sin (rot 2)
  { dir := ![-(cz * sy * cx + sz * sx), -(sz * sy * cx - cz * sx), -(cy * cx)]
    up := ![cz * sy * sx - sz * cx, sz * sy * sx + cz * cx, cy * sx]
    right := ![cz * cy, sz * cy, -sy] }

/-- The axes of a camera that looks in a direction. -/
def directionBasis (dir : Vec3) : ViewBasis :=
  let upRef : Vec3 := if |dir 2| < 0.999 then ![0, 0, 1] else ![0, 1, 0]
  let right := normalizeOr
    ![dir 1 * upRef 2 - dir 2 * upRef 1, dir 2 * upRef 0 - dir 0 * upRef 2,
      dir 0 * upRef 1 - dir 1 * upRef 0] ![1, 0, 0]
  let up := normalizeOr
    ![right 1 * dir 2 - right 2 * dir 1, right 2 * dir 0 - right 0 * dir 2,
      right 0 * dir 1 - right 1 * dir 0] ![0, 1, 0]
  { right, up, dir }

/-- The axes of a camera: towards a point, in a direction, or as it is turned. -/
def computeViewBasis (loc rot : Vec3) (direction lookAt : Option Vec3) : ViewBasis :=
  match lookAt, direction with
  | some target, _ =>
    directionBasis (normalizeOr ![target 0 - loc 0, target 1 - loc 1, target 2 - loc 2] ![0, 1, 0])
  | none, some direction => directionBasis (normalizeOr direction ![0, 1, 0])
  | none, none => rotationBasis rot

/-! ## Resolving -/

/-- The value of an angle in degrees. -/
def radians (degrees : ℝ) : ℝ := degrees * Real.pi / 180

/-- The width of the picture, divided by its height. -/
def aspectRatio (render : RenderDict) : ℝ :=
  let (resX, resY) :=
    match render.resolutionX.getD (some 1920), render.resolutionY.getD (some 1080) with
    | some resX, some resY => (resX, resY)
    | _, _ => (1920, 1080)
  if 0 < resX ∧ 0 < resY then resX / resY else 1.7777777777777777

/-- The opening angle across the picture that a camera states. -/
def statedFov (fov : RawNumber) : ℝ :=
  match fov with
  | some fov =>
    if fov ≤ 0 ∨ 360 ≤ fov then radians 60 else if 6.28 < fov then radians fov else fov
  | none => radians 60

/-- The opening angle across the picture that a lens gives. -/
def lensFov (lens sensorWidth : ℝ) : ℝ :=
  if 0 < lens ∧ 0 < sensorWidth then 2 * Real.arctan (sensorWidth / (2 * lens)) else radians 60

/-- An opening angle, kept away from a straight one. -/
def clampFov (fov : ℝ) : ℝ := max (1 / 10 ^ 4) (min fov (Real.pi - 1 / 10 ^ 4))

/-- The opening angle upwards that belongs to one across the picture. -/
def fovVertical (fovH aspect : ℝ) : ℝ :=
  2 * Real.arctan (Real.tan (fovH / 2) / max aspect (1 / 10 ^ 6))

/-- The camera that a dictionary describes. -/
def resolveCamera (cam : CameraDict) (render : RenderDict) : CameraModel :=
  let transform := cam.transform.getD cam.ownTransform
  let loc := parseVec3 (transform.location.getD [some 0, some (-10), some 0]) ![0, -10, 0]
  let rot := parseVec3
    (transform.rotationEuler.getD
      (transform.rotation.getD [some (Real.pi / 2), some 0, some 0])) ![Real.pi / 2, 0, 0]
  let direction := (transform.direction <|> cam.ownTransform.direction).bind parsePoint
  let lookAt := (transform.lookAt <|> cam.ownTransform.lookAt <|> transform.target).bind parsePoint
  let info := cam.camera.getD cam.ownInfo
  let scale := parseNumber info.orthoScale 6
  let fovH := clampFov <|
    match info.fov with
    | some fov => statedFov fov
    | none => lensFov (parseNumber info.lens 50) (parseNumber info.sensorWidth 36)
  let basis := computeViewBasis loc rot direction lookAt
  { location := loc
    fovH
    fovV := fovVertical fovH (aspectRatio render)
    clipStart := parseNumber (info.clipStart <|> info.near <|> render.clipStart) 0.1
    clipEnd := parseNumber (info.clipEnd <|> info.far <|> render.clipEnd) 1000
    projectionType := upperCase (info.type.getD (info.projectionType.getD "PERSPECTIVE"))
    orthoScale := if scale ≤ 0 then 6 else scale
    aspectRatio := aspectRatio render
    rightVec := basis.right
    upVec := basis.up
    dirVec := basis.dir }

/-! ## Cameras of Blender -/

/-- The projections that Blender knows. -/
inductive BlenderProjection
  | persp
  | ortho
  | pano
  deriving DecidableEq

/-- The name of a projection. -/
def BlenderProjection.identifier : BlenderProjection → String
  | .persp => "PERSP"
  | .ortho => "ORTHO"
  | .pano => "PANO"

/-- The data of a camera. An attribute that it does not have is `none`. -/
structure BlenderCamera where
  type : BlenderProjection
  lens : Option ℝ
  sensorWidth : Option ℝ
  clipStart : Option ℝ
  clipEnd : Option ℝ
  orthoScale : ℝ

/-- A camera in a scene. -/
structure BlenderObject where
  location : Vec3
  rotationEuler : Vec3
  data : BlenderCamera

namespace BlenderObject

/-- The coordinates of a point as a list. -/
def coordinates (p : Vec3) : RawPoint := [some (p 0), some (p 1), some (p 2)]

variable (obj : BlenderObject)

/-- Report the placement of an object. -/
def extractTransform : CameraTransform where
  location := some (coordinates obj.location)
  rotationEuler := some (coordinates obj.rotationEuler)

/-- Report the lens of a camera. -/
def extractCamera : CameraInfo where
  type := some obj.data.type.identifier
  lens := some (some (obj.data.lens.getD 0))
  sensorWidth := some (some (obj.data.sensorWidth.getD 0))
  clipStart := some (some (obj.data.clipStart.getD 0))
  clipEnd := some (some (obj.data.clipEnd.getD 0))

/-- What the scan of a scene reports of a camera. -/
def extractObject : CameraDict where
  transform := some obj.extractTransform
  camera := some obj.extractCamera

/-- The camera that culling works with. -/
def resolved (render : RenderDict) : CameraModel := resolveCamera obj.extractObject render

end BlenderObject

namespace BlenderObject

/-! ### What culling gets to know of a camera -/

variable (obj : BlenderObject) (render : RenderDict)

theorem parseVec3_coordinates (p default : Vec3) : parseVec3 (coordinates p) default = p := by
  ext i
  fin_cases i <;> rfl

@[simp] theorem resolved_location : (obj.resolved render).location = obj.location :=
  parseVec3_coordinates obj.location ![0, -10, 0]

theorem computeViewBasis_resolved : computeViewBasis obj.location
    (parseVec3 (coordinates obj.rotationEuler) ![Real.pi / 2, 0, 0]) none none =
      rotationBasis obj.rotationEuler := by
  rw [parseVec3_coordinates]
  rfl

@[simp] theorem resolved_rightVec :
    (obj.resolved render).rightVec = (rotationBasis obj.rotationEuler).right := by
  rw [← computeViewBasis_resolved]
  rfl

@[simp] theorem resolved_upVec :
    (obj.resolved render).upVec = (rotationBasis obj.rotationEuler).up := by
  rw [← computeViewBasis_resolved]
  rfl

@[simp] theorem resolved_dirVec :
    (obj.resolved render).dirVec = (rotationBasis obj.rotationEuler).dir := by
  rw [← computeViewBasis_resolved]
  rfl

@[simp] theorem resolved_fovV : (obj.resolved render).fovV =
    fovVertical (obj.resolved render).fovH (aspectRatio render) := rfl

/-- The spelling of the projections is that of Blender, and none of them is the one that the
frustum test knows. -/
theorem resolved_projectionType_ne : (obj.resolved render).projectionType ≠ "ORTHOGRAPHIC" := by
  change upperCase obj.data.type.identifier ≠ "ORTHOGRAPHIC"
  cases obj.data.type <;> decide

end BlenderObject

/-! ## Points in the space of a camera -/

/-- Axes of length one at right angles. -/
structure ViewBasis.IsOrthonormal (b : ViewBasis) : Prop where
  right_right : b.right 0 * b.right 0 + b.right 1 * b.right 1 + b.right 2 * b.right 2 = 1
  up_up : b.up 0 * b.up 0 + b.up 1 * b.up 1 + b.up 2 * b.up 2 = 1
  dir_dir : b.dir 0 * b.dir 0 + b.dir 1 * b.dir 1 + b.dir 2 * b.dir 2 = 1
  right_up : b.right 0 * b.up 0 + b.right 1 * b.up 1 + b.right 2 * b.up 2 = 0
  right_dir : b.right 0 * b.dir 0 + b.right 1 * b.dir 1 + b.right 2 * b.dir 2 = 0
  up_dir : b.up 0 * b.dir 0 + b.up 1 * b.dir 1 + b.up 2 * b.dir 2 = 0

/-- Axes that make a frame are orthonormal. -/
theorem ViewBasis.isOrthonormal_of_isFrame {b : ViewBasis} (h : IsFrame b.right b.up (-b.dir)) :
    b.IsOrthonormal := by
  have hdd := h.zz
  have hrd := h.xz
  have hud := h.yz
  rw [neg_dotProduct_neg] at hdd
  rw [dotProduct_neg, neg_eq_zero] at hrd hud
  constructor <;> rw [← vec3_dotProduct]
  exacts [h.xx, h.yy, hdd, h.xy, hrd, hud]

/-- The rotation of the corners of objects is three turns, one after the other. -/
theorem rotateEuler_eq (rot : Vec3) : (rotateEuler · rot) =
    turnZ (Real.cos (rot 2)) (Real.sin (rot 2)) ∘
      turnY (Real.cos (rot 1)) (Real.sin (rot 1)) ∘
        turnX (Real.cos (rot 0)) (Real.sin (rot 0)) := rfl

theorem isRotation_rotateEuler (rot : Vec3) : IsRotation (rotateEuler · rot) := by
  rw [rotateEuler_eq]
  exact (isRotation_turnZ (Real.cos_sq_add_sin_sq _)).comp
    ((isRotation_turnY (Real.cos_sq_add_sin_sq _)).comp
      (isRotation_turnX (Real.cos_sq_add_sin_sq _)))

/-- The axes of a turned camera are those of an unturned one, turned like the corners of objects. -/
theorem rotationBasis_eq (rot : Vec3) : rotationBasis rot =
    { right := rotateEuler ![1, 0, 0] rot
      up := rotateEuler ![0, 1, 0] rot
      dir := rotateEuler ![0, 0, -1] rot } := by
  rw [rotationBasis, ViewBasis.mk.injEq]
  refine ⟨?_, ?_, ?_⟩
  · simp only [rotateEuler, cons_val]
    apply vec3_eq <;> ring
  · simp only [rotateEuler, cons_val]
    apply vec3_eq <;> ring
  · simp only [rotateEuler, cons_val]
    apply vec3_eq <;> ring

theorem rotateEuler_backwards (rot : Vec3) :
    rotateEuler ![0, 0, 1] rot = -rotateEuler ![0, 0, -1] rot := by
  ext i
  fin_cases i <;> simp [rotateEuler] <;> ring

theorem rotationBasis_isFrame (rot : Vec3) :
    IsFrame (rotationBasis rot).right (rotationBasis rot).up (-(rotationBasis rot).dir) := by
  rw [rotationBasis_eq, ← rotateEuler_backwards]
  exact isFrame_axes.map (isRotation_rotateEuler rot)

/-- Turning a camera keeps its axes orthonormal. -/
theorem rotationBasis_isOrthonormal (rot : Vec3) : (rotationBasis rot).IsOrthonormal :=
  ViewBasis.isOrthonormal_of_isFrame (rotationBasis_isFrame rot)

/-- The axes of a camera. -/
def CameraModel.basis (camera : CameraModel) : ViewBasis :=
  ⟨camera.rightVec, camera.upVec, camera.dirVec⟩

/-- The point of the world that has some coordinates in the space of a camera. -/
def fromCamSpace (camera : CameraModel) (c : Vec3) : Vec3 := fun i =>
  camera.location i + c 0 * camera.rightVec i + c 1 * camera.upVec i + c 2 * camera.dirVec i

/-- A point has the coordinates that it was given. -/
theorem worldToCamSpace_fromCamSpace {camera : CameraModel} (h : camera.basis.IsOrthonormal)
    (c : Vec3) : worldToCamSpace camera (fromCamSpace camera c) = c := by
  obtain ⟨hrr, huu, hdd, hru, hrd, hud⟩ := h
  simp only [CameraModel.basis] at hrr huu hdd hru hrd hud
  ext i
  fin_cases i <;> simp only [Fin.zero_eta, Fin.mk_one, Fin.reduceFinMk, worldToCamSpace_zero,
    worldToCamSpace_one, worldToCamSpace_two, CameraModel.along, fromCamSpace]
  · linear_combination c 0 * hrr + c 1 * hru + c 2 * hrd
  · linear_combination c 0 * hru + c 1 * huu + c 2 * hud
  · linear_combination c 0 * hrd + c 1 * hud + c 2 * hdd

/-! ## The opening of a lens -/

/-- Half the width of the picture of a lens at distance one: half the sensor, divided by the focal
length. A lens without a size opens by sixty degrees. -/
def lensOpening (lens sensorWidth : ℝ) : ℝ :=
  max (Real.tan (1 / 10 ^ 4 / 2)) <| min (Real.tan ((Real.pi - 1 / 10 ^ 4) / 2)) <|
    if 0 < lens ∧ 0 < sensorWidth then sensorWidth / (2 * lens) else Real.tan (radians 60 / 2)

theorem lensFov_mem (lens sensorWidth : ℝ) :
    lensFov lens sensorWidth / 2 ∈ Set.Ioo (-(Real.pi / 2)) (Real.pi / 2) := by
  have hpi := Real.pi_pos
  unfold lensFov radians
  split_ifs with h
  · rw [mul_div_cancel_left₀ _ two_ne_zero]
    exact Real.arctan_mem_Ioo _
  · constructor <;> linarith

/-- The tangent of half the angle across the picture is the opening of the lens. -/
theorem tan_clampFov (lens sensorWidth : ℝ) :
    Real.tan (clampFov (lensFov lens sensorWidth) / 2) = lensOpening lens sensorWidth := by
  have hpi := Real.two_le_pi
  have hlow : (1 / 10 ^ 4 / 2 : ℝ) ∈ Set.Ioo (-(Real.pi / 2)) (Real.pi / 2) := by
    constructor <;> linarith
  have hhigh : (Real.pi - 1 / 10 ^ 4) / 2 ∈ Set.Ioo (-(Real.pi / 2)) (Real.pi / 2) := by
    constructor <;> linarith
  have hlens := lensFov_mem lens sensorWidth
  have hmin : min (lensFov lens sensorWidth / 2) ((Real.pi - 1 / 10 ^ 4) / 2) ∈
      Set.Ioo (-(Real.pi / 2)) (Real.pi / 2) := by
    rcases min_choice (lensFov lens sensorWidth / 2) ((Real.pi - 1 / 10 ^ 4) / 2) with h | h
    · rwa [h]
    · rwa [h]
  have htan : Real.tan (lensFov lens sensorWidth / 2) =
      if 0 < lens ∧ 0 < sensorWidth then sensorWidth / (2 * lens)
      else Real.tan (radians 60 / 2) := by
    unfold lensFov
    split_ifs with h
    · rw [mul_div_cancel_left₀ _ two_ne_zero, Real.tan_arctan]
    · rfl
  have hmono := Real.strictMonoOn_tan.monotoneOn
  rw [clampFov, ← max_div_div_right zero_le_two, ← min_div_div_right zero_le_two]
  rw [hmono.map_max hlow hmin, hmono.map_min hlens hhigh, htan, min_comm]
  rfl

theorem lensOpening_pos (lens sensorWidth : ℝ) : 0 < lensOpening lens sensorWidth := by
  have hpi := Real.two_le_pi
  refine lt_of_lt_of_le ?_ (le_max_left ..)
  apply Real.tan_pos_of_pos_of_lt_pi_div_two
  · norm_num
  · linarith

theorem tan_fovVertical (fovH aspect : ℝ) :
    Real.tan (fovVertical fovH aspect / 2) = Real.tan (fovH / 2) / max aspect (1 / 10 ^ 6) := by
  rw [fovVertical, mul_div_cancel_left₀ _ two_ne_zero, Real.tan_arctan]

theorem aspectRatio_pos (render : RenderDict) : 0 < aspectRatio render := by
  simp only [aspectRatio]
  split_ifs with h
  · exact div_pos h.1 h.2
  · norm_num

namespace BlenderObject

variable (obj : BlenderObject) (render : RenderDict)

/-- Half the width of the picture of a camera at distance one. -/
def opening : ℝ := lensOpening (obj.data.lens.getD 0) (obj.data.sensorWidth.getD 0)

theorem opening_pos : 0 < obj.opening := lensOpening_pos ..

theorem tan_fovH : Real.tan ((obj.resolved render).fovH / 2) = obj.opening := tan_clampFov ..

theorem tan_fovV : Real.tan ((obj.resolved render).fovV / 2) =
    obj.opening / max (aspectRatio render) (1 / 10 ^ 6) := by
  rw [resolved_fovV, tan_fovVertical, tan_fovH]

theorem resolved_isOrthonormal : (obj.resolved render).basis.IsOrthonormal := by
  have hbasis : (obj.resolved render).basis = rotationBasis obj.rotationEuler := by
    simp only [CameraModel.basis, resolved_rightVec, resolved_upVec, resolved_dirVec]
  rw [hbasis]
  exact rotationBasis_isOrthonormal _

end BlenderObject

end Aidars.Visibility

end
