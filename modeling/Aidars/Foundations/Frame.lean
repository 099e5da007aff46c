import Mathlib.LinearAlgebra.CrossProduct
import Mathlib.Tactic.FinCases
import Mathlib.Tactic.LinearCombination

/-!
# Right-handed frames

Three vectors of length one at right angles, the third of which is the cross product of the first
two, are a frame. Maps that preserve dot and cross products preserve frames (`IsFrame.map`); turns
about the axes are such maps, and so are turns one after the other. A vector of length one and
another at a right angle to it are completed to a frame by their cross product
(`isFrame_cross_neg`).
-/

namespace Aidars

open Matrix

variable {R : Type*} [CommRing R]

/-- A right-handed orthonormal frame. -/
structure IsFrame (x y z : Fin 3 → R) : Prop where
  xx : x ⬝ᵥ x = 1
  yy : y ⬝ᵥ y = 1
  zz : z ⬝ᵥ z = 1
  xy : x ⬝ᵥ y = 0
  xz : x ⬝ᵥ z = 0
  yz : y ⬝ᵥ z = 0
  cross : x ⨯₃ y = z

/-- Two vectors of length one at a right angle make a frame with their cross product. -/
theorem isFrame_cross {x y : Fin 3 → R} (hx : x ⬝ᵥ x = 1) (hy : y ⬝ᵥ y = 1) (hxy : x ⬝ᵥ y = 0) :
    IsFrame x y (x ⨯₃ y) where
  xx := hx
  yy := hy
  zz := by rw [cross_dot_cross, hx, hy, hxy, zero_mul, sub_zero, one_mul]
  xy := hxy
  xz := dot_self_cross x y
  yz := dot_cross_self x y
  cross := rfl

/-- A vector, the cross product with another, and the reverse of that other. -/
theorem isFrame_cross_neg {x d : Fin 3 → R} (hx : x ⬝ᵥ x = 1) (hd : d ⬝ᵥ d = 1)
    (hxd : x ⬝ᵥ d = 0) : IsFrame x (x ⨯₃ d) (-d) := by
  have hy : x ⨯₃ d ⬝ᵥ x ⨯₃ d = 1 := by
    rw [cross_dot_cross, hx, hd, hxd, zero_mul, sub_zero, one_mul]
  have hz : x ⨯₃ (x ⨯₃ d) = -d := by
    rw [cross_cross_eq_smul_sub_smul', hxd, hx, zero_smul, one_smul, zero_sub]
  exact hz ▸ isFrame_cross hx hy (dot_self_cross x d)

/-! ## Rotations -/

/-- A map that preserves dot and cross products. -/
structure IsRotation (f : (Fin 3 → R) → Fin 3 → R) : Prop where
  dot : ∀ v w, f v ⬝ᵥ f w = v ⬝ᵥ w
  cross : ∀ v w, f v ⨯₃ f w = f (v ⨯₃ w)

variable {f g : (Fin 3 → R) → Fin 3 → R}

theorem IsRotation.comp (hg : IsRotation g) (hf : IsRotation f) : IsRotation (g ∘ f) where
  dot v w := (hg.dot _ _).trans (hf.dot v w)
  cross v w := (hg.cross _ _).trans (congrArg g (hf.cross v w))

/-- **A rotated frame is a frame.** -/
theorem IsFrame.map {x y z : Fin 3 → R} (h : IsFrame x y z) (hf : IsRotation f) :
    IsFrame (f x) (f y) (f z) where
  xx := (hf.dot x x).trans h.xx
  yy := (hf.dot y y).trans h.yy
  zz := (hf.dot z z).trans h.zz
  xy := (hf.dot x y).trans h.xy
  xz := (hf.dot x z).trans h.xz
  yz := (hf.dot y z).trans h.yz
  cross := (hf.cross x y).trans (congrArg f h.cross)

/-- The turn about the first axis with a cosine and a sine. -/
def turnX (c s : R) (v : Fin 3 → R) : Fin 3 → R := ![v 0, v 1 * c - v 2 * s, v 1 * s + v 2 * c]

/-- The turn about the second axis. -/
def turnY (c s : R) (v : Fin 3 → R) : Fin 3 → R := ![v 0 * c + v 2 * s, v 1, -v 0 * s + v 2 * c]

/-- The turn about the third axis. -/
def turnZ (c s : R) (v : Fin 3 → R) : Fin 3 → R := ![v 0 * c - v 1 * s, v 0 * s + v 1 * c, v 2]

variable {c s : R}

theorem isRotation_turnX (h : c ^ 2 + s ^ 2 = 1) : IsRotation (turnX c s) where
  dot v w := by
    simp only [turnX, vec3_dotProduct, cons_val]
    linear_combination (v 1 * w 1 + v 2 * w 2) * h
  cross v w := by
    simp only [turnX, cross_apply, cons_val]
    apply vec3_eq
    · linear_combination (v 1 * w 2 - v 2 * w 1) * h
    · ring
    · ring

theorem isRotation_turnY (h : c ^ 2 + s ^ 2 = 1) : IsRotation (turnY c s) where
  dot v w := by
    simp only [turnY, vec3_dotProduct, cons_val]
    linear_combination (v 0 * w 0 + v 2 * w 2) * h
  cross v w := by
    simp only [turnY, cross_apply, cons_val]
    apply vec3_eq
    · ring
    · linear_combination (v 2 * w 0 - v 0 * w 2) * h
    · ring

theorem isRotation_turnZ (h : c ^ 2 + s ^ 2 = 1) : IsRotation (turnZ c s) where
  dot v w := by
    simp only [turnZ, vec3_dotProduct, cons_val]
    linear_combination (v 0 * w 0 + v 1 * w 1) * h
  cross v w := by
    simp only [turnZ, cross_apply, cons_val]
    apply vec3_eq
    · ring
    · ring
    · linear_combination (v 0 * w 1 - v 1 * w 0) * h

/-- The axes are a frame. -/
theorem isFrame_axes : IsFrame (![1, 0, 0] : Fin 3 → R) ![0, 1, 0] ![0, 0, 1] := by
  constructor <;> simp [cross_apply]

end Aidars
