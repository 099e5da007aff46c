import Aidars.Visibility.Geometry

/-!
# What the intersection of a ray and a box means

`rayIntersectsAabb` cuts the range of a ray down by three pairs of faces. Each cut leaves the
parameters at which the ray is between the faces (`cutsTo_cutSlab`), so what the loop leaves is
where the ray is in the box (`left_slabs`), as long as the ray is not in the box outside the range
that the loop begins with (`mem_farRange`).

`rayIntersectsAabb_meets` is the geometric meaning of the answer: there is one if and only if the
ray is in the box somewhere beyond the near threshold, and it is where the ray enters the box, or
where it leaves it if it starts inside.
-/

noncomputable section

namespace Aidars.Visibility

open Clipping

variable {origin direction aabbMin aabbMax : Vec3}

/-- The parameters at which a ray is in a box. -/
def paramsInBox (origin direction aabbMin aabbMax : Vec3) : Set ℝ :=
  {t | PointInAabb (origin + t • direction) aabbMin aabbMax}

/-- The ray crosses the faces of the box, those it is not parallel to, within the range that the
loop over the axes begins with. -/
def CrossesInRange (origin direction aabbMin aabbMax : Vec3) : Prop :=
  ∀ i, direction i ≠ 0 → |(aabbMin i - origin i) / direction i| ≤ 1e30 ∧
    |(aabbMax i - origin i) / direction i| ≤ 1e30

/-- The parameters at which a ray is between the faces across an axis. -/
def betweenFaces (origin direction aabbMin aabbMax : Vec3) (i : Fin 3) : Set ℝ :=
  {t | aabbMin i ≤ origin i + t * direction i ∧ origin i + t * direction i ≤ aabbMax i}

theorem mem_paramsInBox {t : ℝ} : t ∈ paramsInBox origin direction aabbMin aabbMax ↔
    ∀ i ∈ ([0, 1, 2] : List (Fin 3)), t ∈ betweenFaces origin direction aabbMin aabbMax i := by
  simp [paramsInBox, betweenFaces, PointInAabb]

/-! ## The loop over the axes -/

/-- A cut leaves the parameters at which the ray is between the faces. -/
theorem cutsTo_cutSlab (hsteep : Steep direction) (hbox : aabbMin ≤ aabbMax) (i : Fin 3) :
    CutsTo (cutSlab origin direction aabbMin aabbMax · i)
      (betweenFaces origin direction aabbMin aabbMax i) := by
  by_cases hparallel : |direction i| < 1e-9
  · have hzero : direction i = 0 := (hsteep i).resolve_right (not_le.mpr hparallel)
    by_cases hout : origin i < aabbMin i ∨ aabbMax i < origin i
    · have hcut : (cutSlab origin direction aabbMin aabbMax · i) = fun _ => none := by
        funext range
        rw [cutSlab, if_pos hparallel, if_pos hout]
      rw [hcut]
      apply cutsTo_drop
      rintro t ⟨hlow, hhigh⟩
      rw [hzero, mul_zero, add_zero] at hlow hhigh
      exact hout.elim hlow.not_gt hhigh.not_gt
    · have hcut : (cutSlab origin direction aabbMin aabbMax · i) = some := by
        funext range
        rw [cutSlab, if_pos hparallel, if_neg hout]
      rw [hcut]
      rw [not_or, not_lt, not_lt] at hout
      apply cutsTo_keep
      intro t
      rw [betweenFaces, Set.mem_ofPred_eq, hzero, mul_zero, add_zero]
      exact hout
  · have hne : direction i ≠ 0 := by
      rintro hzero
      rw [hzero, abs_zero] at hparallel
      norm_num at hparallel
    have hcut : (cutSlab origin direction aabbMin aabbMax · i) =
        cutTo (min ((aabbMin i - origin i) / direction i) ((aabbMax i - origin i) / direction i))
          (max ((aabbMin i - origin i) / direction i)
            ((aabbMax i - origin i) / direction i)) := by
      funext range
      simp only [cutSlab, if_neg hparallel, sorted_pair, mul_one_div, cutTo]
    have hset : betweenFaces origin direction aabbMin aabbMax i =
        Set.Icc (min ((aabbMin i - origin i) / direction i)
            ((aabbMax i - origin i) / direction i))
          (max ((aabbMin i - origin i) / direction i)
            ((aabbMax i - origin i) / direction i)) :=
      Set.ext fun t => between_iff hne (hbox i) t
    rw [hcut, hset]
    exact cutsTo_cutTo _ _

/-- What the loop leaves is where the ray is in the box. -/
theorem left_slabs (hsteep : Steep direction) (hbox : aabbMin ≤ aabbMax) (range : ℝ × ℝ) :
    left ([0, 1, 2].foldlM (cutSlab origin direction aabbMin aabbMax) range) =
      Set.Icc range.1 range.2 ∩ paramsInBox origin direction aabbMin aabbMax := by
  rw [left_foldlM (cutsTo_cutSlab hsteep hbox)]
  congr 1
  exact Set.ext fun t => mem_paramsInBox.symm

/-- A ray that goes anywhere is in the box within the range of the loop only. -/
theorem mem_farRange (hdirection : direction ≠ 0) (hbox : aabbMin ≤ aabbMax)
    (hrange : CrossesInRange origin direction aabbMin aabbMax) {t : ℝ}
    (ht : t ∈ paramsInBox origin direction aabbMin aabbMax) : t ∈ Set.Icc (-1e30) 1e30 := by
  obtain ⟨i, hi⟩ : ∃ i, direction i ≠ 0 := Function.ne_iff.mp hdirection
  have hmem : t ∈ betweenFaces origin direction aabbMin aabbMax i :=
    mem_paramsInBox.mp ht i (by fin_cases i <;> simp)
  obtain ⟨hmin, hmax⟩ := hrange i hi
  obtain ⟨hlow, hhigh⟩ := (between_iff hi (hbox i) t).mp hmem
  constructor
  · exact (le_min (abs_le.mp hmin).1 (abs_le.mp hmax).1).trans hlow
  · exact hhigh.trans (max_le (abs_le.mp hmin).2 (abs_le.mp hmax).2)

/-! ## The answer -/

/-- The parameters at which the ray is in the box are a range that is not empty, from which the
answer is taken, or there are none and there is no answer. -/
theorem rayIntersectsAabb_cases (hdirection : direction ≠ 0) (hsteep : Steep direction)
    (hbox : aabbMin ≤ aabbMax) (hrange : CrossesInRange origin direction aabbMin aabbMax) :
    (paramsInBox origin direction aabbMin aabbMax = ∅ ∧
      rayIntersectsAabb origin direction aabbMin aabbMax = none) ∨
    ∃ tMin tMax, tMin ≤ tMax ∧
      paramsInBox origin direction aabbMin aabbMax = Set.Icc tMin tMax ∧
      rayIntersectsAabb origin direction aabbMin aabbMax =
        if tMax ≤ 1e-4 then none else some (if 1e-4 < tMin then tMin else tMax) := by
  have hleft : left ([0, 1, 2].foldlM (cutSlab origin direction aabbMin aabbMax)
      (-1e30, 1e30)) = paramsInBox origin direction aabbMin aabbMax := by
    rw [left_slabs hsteep hbox]
    exact Set.inter_eq_right.mpr fun t => mem_farRange hdirection hbox hrange
  cases hfold : [0, 1, 2].foldlM (cutSlab origin direction aabbMin aabbMax) (-1e30, 1e30) with
  | none =>
    rw [hfold] at hleft
    exact .inl ⟨hleft.symm, by rw [rayIntersectsAabb, hfold]; rfl⟩
  | some range =>
    obtain ⟨tMin, tMax⟩ := range
    rw [hfold] at hleft
    have hle : tMin ≤ tMax :=
      le_of_foldlM (fun i range range' h hr => (cutSlab_le h hr).2.1) hfold (by norm_num)
    refine .inr ⟨tMin, tMax, hle, hleft.symm, ?_⟩
    rw [rayIntersectsAabb, hfold]
    by_cases hbehind : tMax ≤ 1e-4
    · simp [hbehind]
    · by_cases hnear : 1e-4 < tMin
      · simp [hbehind, hnear]
      · simp [hbehind, hnear, not_le.mp hbehind]

/-- **What the intersection of a ray and a box means.** There is an answer precisely if the ray is
in the box somewhere beyond the near threshold. It is the least parameter beyond the threshold at
which the ray is in the box, or, if the ray is inside at the threshold, the last one at all. -/
theorem rayIntersectsAabb_meets (hdirection : direction ≠ 0) (hsteep : Steep direction)
    (hbox : aabbMin ≤ aabbMax) (hrange : CrossesInRange origin direction aabbMin aabbMax) :
    ((∃ hitT, rayIntersectsAabb origin direction aabbMin aabbMax = some hitT) ↔
      ∃ t : ℝ, 1e-4 < t ∧ PointInAabb (origin + t • direction) aabbMin aabbMax) ∧
    ∀ hitT, rayIntersectsAabb origin direction aabbMin aabbMax = some hitT →
      (¬PointInAabb (origin + (1e-4 : ℝ) • direction) aabbMin aabbMax →
        IsLeast {t : ℝ | 1e-4 < t ∧ PointInAabb (origin + t • direction) aabbMin aabbMax} hitT) ∧
      (PointInAabb (origin + (1e-4 : ℝ) • direction) aabbMin aabbMax →
        IsGreatest {t : ℝ | PointInAabb (origin + t • direction) aabbMin aabbMax} hitT) := by
  have hinside : ∀ t : ℝ, PointInAabb (origin + t • direction) aabbMin aabbMax ↔
      t ∈ paramsInBox origin direction aabbMin aabbMax := fun _ => Iff.rfl
  simp only [hinside]
  rcases rayIntersectsAabb_cases hdirection hsteep hbox hrange with
    ⟨hempty, hnone⟩ | ⟨tMin, tMax, hle, hparams, hanswer⟩
  · simp [hempty, hnone]
  rw [hparams, hanswer]
  by_cases hbehind : tMax ≤ 1e-4
  · simp only [if_pos hbehind]
    refine ⟨⟨by simp, ?_⟩, by simp⟩
    rintro ⟨t, hnear, -, hhigh⟩
    exact absurd hnear (hhigh.trans hbehind).not_gt
  · simp only [if_neg hbehind]
    rw [not_le] at hbehind
    refine ⟨⟨fun _ => ⟨tMax, hbehind, hle, le_rfl⟩, fun _ => ⟨_, rfl⟩⟩, ?_⟩
    rintro hitT hhit
    obtain rfl := Option.some.inj hhit
    by_cases hnear : 1e-4 < tMin
    · rw [if_pos hnear]
      refine ⟨fun _ => ⟨⟨hnear, le_rfl, hle⟩, fun t ht => ht.2.1⟩, fun hstart => ?_⟩
      exact absurd hstart.1 hnear.not_ge
    · rw [if_neg hnear]
      rw [not_lt] at hnear
      refine ⟨fun hstart => absurd ⟨hnear, hbehind.le⟩ hstart, fun _ => ?_⟩
      exact isGreatest_Icc hle

/-- A ray from the origin along the first axis enters a cube that begins at distance one there. -/
theorem rayIntersectsAabb_meets_cube :
    ∃ hitT, rayIntersectsAabb 0 ![1, 0, 0] ![1, -1, -1] ![2, 1, 1] = some hitT ∧
      IsLeast {t : ℝ | 1e-4 < t ∧
        PointInAabb (0 + t • ![1, 0, 0]) ![1, -1, -1] ![2, 1, 1]} hitT := by
  have hdirection : (![1, 0, 0] : Vec3) ≠ 0 := fun h => one_ne_zero (congrFun h 0)
  have hsteep : Steep ![1, 0, 0] := by
    intro i
    fin_cases i
    · exact .inr (by norm_num)
    · exact .inl rfl
    · exact .inl rfl
  have hbox : (![1, -1, -1] : Vec3) ≤ ![2, 1, 1] := by
    intro i
    fin_cases i <;> norm_num
  have hrange : CrossesInRange 0 ![1, 0, 0] ![1, -1, -1] ![2, 1, 1] := by
    intro i hi
    fin_cases i
    · norm_num
    · exact absurd rfl hi
    · exact absurd rfl hi
  obtain ⟨hiff, hvalue⟩ := rayIntersectsAabb_meets hdirection hsteep hbox hrange
  obtain ⟨hitT, hhit⟩ := hiff.mpr ⟨1, by norm_num, by simp [PointInAabb]⟩
  refine ⟨hitT, hhit, (hvalue hitT hhit).1 ?_⟩
  norm_num [PointInAabb]

end Aidars.Visibility

end
