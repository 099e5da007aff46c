import Mathlib.Data.List.Sort
import Mathlib.Data.Rat.Defs
import Mathlib.Algebra.Order.Field.Rat

/-!
# Render eligibility

Whether an object is rendered at all in a range of frames, by its flag `hide_render` or by the
keyframes that animate it. `isEligibleInRange` decides it for a typed object, and
`evaluateEligibility` for the dictionary of an object.

The two compare with the threshold differently and look at different keyframes.
`eligibility_agrees_iff` says when they agree.
-/

namespace Aidars.Visibility

/-! ## Objects -/

/-- A keyframe of an animation curve. -/
structure KeyframeInfo where
  frame : ℤ := 0
  value : ℚ := 0
  interpolation : String := ""
  deriving DecidableEq

/-- An F-curve. -/
structure AnimationCurveInfo where
  name : String := ""
  dataPath : String := ""
  arrayIndex : ℤ := -1
  keyframes : List KeyframeInfo := []
  interpolation : String := ""
  deriving DecidableEq

/-- What eligibility reads of an object: its flag, and the curves of its animation. -/
structure SceneObject where
  hideRender : Bool := false
  animation : Option (List AnimationCurveInfo) := none
  deriving DecidableEq

/-- A keyframe in a dictionary. -/
structure KeyframeDict where
  frame : Option ℤ := none
  value : Option ℚ := none

/-- A curve in a dictionary. -/
structure CurveDict where
  dataPath : Option String := none
  keyframes : Option (List KeyframeDict) := none

/-- What eligibility reads of the dictionary of an object. -/
structure ObjectDict where
  hideRender : Option Bool := none
  curves : Option (List CurveDict) := none

/-- The dictionary of a keyframe. -/
def KeyframeInfo.asdict (k : KeyframeInfo) : KeyframeDict where
  frame := some k.frame
  value := some k.value

/-- The dictionary of a curve. -/
def AnimationCurveInfo.asdict (curve : AnimationCurveInfo) : CurveDict where
  dataPath := some curve.dataPath
  keyframes := some (curve.keyframes.map KeyframeInfo.asdict)

/-- The dictionary of an object. -/
def SceneObject.asdict (obj : SceneObject) : ObjectDict where
  hideRender := some obj.hideRender
  curves := obj.animation.map (·.map AnimationCurveInfo.asdict)

/-- From this value on a keyframe hides. -/
def hiddenThreshold : ℚ := 1 / 2

/-! ## Typed objects -/

variable (upper : String → String)

/-- Sort keyframes by their frames. -/
def sortKeyframes (keyframes : List KeyframeInfo) : List KeyframeInfo :=
  keyframes.insertionSort fun a b => a.frame ≤ b.frame

/-- The values of the keyframes in a range. -/
def valuesInRange (keyframes : List KeyframeInfo) (frameStart frameEnd : ℤ) : List ℚ :=
  (keyframes.filter fun k => frameStart ≤ k.frame && k.frame ≤ frameEnd).map (·.value)

/-- The value of the last of the keyframes at or before a frame. -/
def prevValue (first : KeyframeInfo) (keyframes : List KeyframeInfo) (frame : ℤ) : ℚ :=
  ((keyframes.filter (·.frame ≤ frame)).getLast?.getD first).value

/-- The value of the first of the keyframes at or after a frame. -/
def nextValue (last : KeyframeInfo) (keyframes : List KeyframeInfo) (frame : ℤ) : ℚ :=
  ((keyframes.filter (frame ≤ ·.frame)).head?.getD last).value

/-- The interpolation of a curve holds the values of its keyframes. -/
def isConstant (curve : AnimationCurveInfo) : Bool :=
  upper (if curve.interpolation = "" then "BEZIER" else curve.interpolation) = "CONSTANT"

/-- A curve makes its object visible in a range of frames. -/
def curveIndicatesVisibleInRange (curve : AnimationCurveInfo) (frameStart frameEnd : ℤ)
    (staticHidden : Bool) : Bool :=
  match sortKeyframes curve.keyframes with
  | [] => !staticHidden
  | first :: rest =>
    let inRange := valuesInRange (first :: rest) frameStart frameEnd
    if inRange.any (· ≤ hiddenThreshold) then true
    else
      let prevVal := prevValue first (first :: rest) frameStart
      let nextVal := nextValue ((first :: rest).getLast (by simp)) (first :: rest) frameEnd
      if prevVal ≤ hiddenThreshold then true
      else if !isConstant upper curve && nextVal ≤ hiddenThreshold then true
      else inRange.isEmpty && prevVal ≤ hiddenThreshold

/-- The curve that animates the flag. -/
def findHideRenderCurve (obj : SceneObject) : Option AnimationCurveInfo :=
  obj.animation.bind fun curves => curves.find? (·.dataPath = "hide_render")

/-- The verdict for a typed object. -/
def isEligibleInRange (obj : SceneObject) (frameStart frameEnd : ℤ) : Bool :=
  match findHideRenderCurve obj with
  | none => !obj.hideRender
  | some curve => curveIndicatesVisibleInRange upper curve frameStart frameEnd obj.hideRender

/-! ## Dictionaries -/

/-- The value that is held when the range starts. -/
def heldValue (frameStart : ℤ) : ℚ → List KeyframeDict → ℚ
  | held, [] => held
  | held, k :: keyframes =>
    if k.frame.getD 0 ≤ frameStart then heldValue frameStart (k.value.getD 0) keyframes else held

/-- The verdict for the dictionary of an object. -/
def evaluateEligibility (obj : ObjectDict) (frameStart frameEnd : ℤ) : Bool :=
  let staticHidden := obj.hideRender.getD false
  match (obj.curves.getD []).find? (·.dataPath = some "hide_render") with
  | none => !staticHidden
  | some hideCurve =>
    match (hideCurve.keyframes.getD []).insertionSort fun a b =>
        a.frame.getD 0 ≤ b.frame.getD 0 with
    | [] => !staticHidden
    | first :: rest =>
      let inRange := ((first :: rest).filter fun k =>
        frameStart ≤ k.frame.getD 0 && k.frame.getD 0 ≤ frameEnd).map (·.value.getD 0)
      if inRange.isEmpty then heldValue frameStart (first.value.getD 0) (first :: rest) < 1 / 2
      else inRange.any (· < 1 / 2)

/-! ## Agreement -/

/-- The object is visible at a frame when the values of keyframes are held. -/
def VisibleAt (obj : SceneObject) (frame : ℤ) : Prop :=
  match (findHideRenderCurve obj).map fun curve => sortKeyframes curve.keyframes with
  | none | some [] => obj.hideRender = false
  | some (first :: rest) => prevValue first (first :: rest) frame < hiddenThreshold

/-- The verdicts are equal, and both are that an object is eligible that is visible at some frame of
the range. -/
def Agrees (obj : SceneObject) (frameStart frameEnd : ℤ) : Prop :=
  isEligibleInRange upper obj frameStart frameEnd =
      evaluateEligibility obj.asdict frameStart frameEnd ∧
    ∀ frame, frameStart ≤ frame → frame ≤ frameEnd → VisibleAt obj frame →
      isEligibleInRange upper obj frameStart frameEnd = true ∧
        evaluateEligibility obj.asdict frameStart frameEnd = true

/-- The keyframes leave no doubt: one in the range shows the object; or there is none in the range,
and the value that is held shows it; or the keyframes in the range, the value that is held at its
start and, unless values are held, the next keyframe from its end on all hide the object, none of
them by the threshold itself. -/
def ClearCut (obj : SceneObject) (frameStart frameEnd : ℤ) : Prop :=
  ∀ curve first rest, findHideRenderCurve obj = some curve →
    sortKeyframes curve.keyframes = first :: rest →
    (∃ v ∈ valuesInRange (first :: rest) frameStart frameEnd, v < hiddenThreshold) ∨
    (valuesInRange (first :: rest) frameStart frameEnd = [] ∧
      prevValue first (first :: rest) frameStart < hiddenThreshold) ∨
    ((∀ v ∈ valuesInRange (first :: rest) frameStart frameEnd, hiddenThreshold < v) ∧
      hiddenThreshold < prevValue first (first :: rest) frameStart ∧
      (isConstant upper curve = true ∨
        hiddenThreshold < nextValue ((first :: rest).getLast (by simp)) (first :: rest) frameEnd))

variable {upper} {obj : SceneObject} {curve : AnimationCurveInfo} {first : KeyframeInfo}
  {rest kfs : List KeyframeInfo} {s e : ℤ}

theorem pairwise_sortKeyframes (keyframes : List KeyframeInfo) :
    (sortKeyframes keyframes).Pairwise fun a b => a.frame ≤ b.frame := by
  have htotal : Std.Total fun a b : KeyframeInfo => a.frame ≤ b.frame :=
    ⟨fun a b => le_total a.frame b.frame⟩
  have htrans : IsTrans KeyframeInfo fun a b => a.frame ≤ b.frame := ⟨fun _ _ _ => le_trans⟩
  exact List.pairwise_insertionSort _ keyframes

/-! ### The two verdicts -/

/-- The verdict for a typed object with keyframes. -/
theorem isEligibleInRange_iff (upper : String → String) (s e : ℤ)
    (hcurve : findHideRenderCurve obj = some curve)
    (hkfs : sortKeyframes curve.keyframes = first :: rest) :
    isEligibleInRange upper obj s e = true ↔
      (∃ v ∈ valuesInRange (first :: rest) s e, v ≤ hiddenThreshold) ∨
        prevValue first (first :: rest) s ≤ hiddenThreshold ∨
        (isConstant upper curve = false ∧
          nextValue ((first :: rest).getLast (by simp)) (first :: rest) e ≤ hiddenThreshold) := by
  unfold isEligibleInRange curveIndicatesVisibleInRange
  rw [hcurve]
  dsimp only
  rw [hkfs]
  dsimp only
  have hany : (valuesInRange (first :: rest) s e).any (· ≤ hiddenThreshold) = true ↔
      ∃ v ∈ valuesInRange (first :: rest) s e, v ≤ hiddenThreshold := by
    rw [List.any_eq_true]
    simp only [decide_eq_true_eq]
  split_ifs with hin hprev hnext
  · exact iff_of_true rfl (.inl (hany.1 hin))
  · exact iff_of_true rfl (.inr (.inl hprev))
  · rw [Bool.and_eq_true, Bool.not_eq_true', decide_eq_true_eq] at hnext
    exact iff_of_true rfl (.inr (.inr hnext))
  · rw [Bool.and_eq_true, Bool.not_eq_true', decide_eq_true_eq] at hnext
    refine iff_of_false (by simp [hprev]) ?_
    rintro (h | h | h)
    · exact hin (hany.2 h)
    · exact hprev h
    · exact hnext h

theorem heldValue_eq (held : ℚ) (h : kfs.Pairwise fun a b => a.frame ≤ b.frame) :
    heldValue s held (kfs.map KeyframeInfo.asdict) =
      (((kfs.filter (·.frame ≤ s)).getLast?.map (·.value)).getD held) := by
  induction kfs generalizing held with
  | nil => rfl
  | cons k kfs ih =>
    obtain ⟨hk, hrest⟩ := List.pairwise_cons.1 h
    have hcons : heldValue s held (k.asdict :: kfs.map KeyframeInfo.asdict) =
        if k.frame ≤ s then heldValue s k.value (kfs.map KeyframeInfo.asdict) else held := rfl
    rw [List.map_cons, hcons]
    split_ifs with hframe
    · rw [ih _ hrest, List.filter_cons_of_pos (by simpa using hframe), List.getLast?_cons]
      cases (kfs.filter (·.frame ≤ s)).getLast? <;> rfl
    · have hnone : (k :: kfs).filter (·.frame ≤ s) = [] := by
        refine List.filter_eq_nil_iff.2 fun x hx => ?_
        have hle : k.frame ≤ x.frame := by
          rcases List.mem_cons.1 hx with rfl | hx
          · exact le_rfl
          · exact hk x hx
        simp only [decide_eq_true_eq]
        omega
      rw [hnone]
      rfl

theorem find?_asdict (obj : SceneObject) :
    (obj.asdict.curves.getD []).find? (·.dataPath = some "hide_render") =
      (findHideRenderCurve obj).map AnimationCurveInfo.asdict := by
  unfold SceneObject.asdict findHideRenderCurve
  cases obj.animation with
  | none => rfl
  | some curves =>
    simp only [Option.map_some, Option.getD_some, Option.bind_some, List.find?_map]
    congr 2
    funext curve
    simp [AnimationCurveInfo.asdict]

/-- The verdict for the dictionary of an object without keyframes. -/
theorem evaluateEligibility_static (h : ∀ curve, findHideRenderCurve obj = some curve →
    sortKeyframes curve.keyframes = []) :
    evaluateEligibility obj.asdict s e = !obj.hideRender := by
  unfold evaluateEligibility
  dsimp only
  rw [find?_asdict]
  cases hcurve : findHideRenderCurve obj with
  | none => rfl
  | some curve =>
    have hnil : curve.keyframes = [] := by
      have hperm := List.perm_insertionSort (fun a b : KeyframeInfo => a.frame ≤ b.frame)
        curve.keyframes
      have hsorted : curve.keyframes.insertionSort (fun a b => a.frame ≤ b.frame) = [] :=
        h curve hcurve
      rw [hsorted] at hperm
      exact hperm.nil_eq.symm
    simp [hnil, SceneObject.asdict, AnimationCurveInfo.asdict]

/-- The verdict for the dictionary of an object with keyframes. -/
theorem evaluateEligibility_iff (s e : ℤ) (hcurve : findHideRenderCurve obj = some curve)
    (hkfs : sortKeyframes curve.keyframes = first :: rest) :
    evaluateEligibility obj.asdict s e = true ↔
      (∃ v ∈ valuesInRange (first :: rest) s e, v < hiddenThreshold) ∨
        (valuesInRange (first :: rest) s e = [] ∧
          prevValue first (first :: rest) s < hiddenThreshold) := by
  have hsorted : (curve.keyframes.map KeyframeInfo.asdict).insertionSort
      (fun a b => a.frame.getD 0 ≤ b.frame.getD 0) = (first :: rest).map KeyframeInfo.asdict := by
    rw [← hkfs, sortKeyframes]
    exact (List.map_insertionSort (fun a b : KeyframeInfo => a.frame ≤ b.frame)
      (fun a b : KeyframeDict => a.frame.getD 0 ≤
        b.frame.getD 0) KeyframeInfo.asdict curve.keyframes
      fun a _ b _ => Iff.rfl).symm
  have hheld : heldValue s first.value ((first :: rest).map KeyframeInfo.asdict) =
      prevValue first (first :: rest) s := by
    rw [heldValue_eq first.value (hkfs ▸ pairwise_sortKeyframes curve.keyframes), prevValue]
    cases ((first :: rest).filter (·.frame ≤ s)).getLast? <;> rfl
  have hvalues : (((first :: rest).map KeyframeInfo.asdict).filter fun k =>
      s ≤ k.frame.getD 0 && k.frame.getD 0 ≤ e).map (·.value.getD 0) =
        valuesInRange (first :: rest) s e := by
    rw [List.filter_map, List.map_map]
    rfl
  unfold evaluateEligibility
  dsimp only
  rw [find?_asdict, hcurve]
  simp only [Option.map_some, AnimationCurveInfo.asdict, Option.getD_some]
  rw [hsorted, List.map_cons]
  dsimp only
  rw [← List.map_cons, hvalues, show first.asdict.value.getD 0 = first.value from rfl, hheld]
  rw [hiddenThreshold]
  cases valuesInRange (first :: rest) s e with
  | nil => simp
  | cons v vs => simp

/-! ### Held values -/

theorem isEligible_of_visibleAt {frame : ℤ} (hs : s ≤ frame) (he : frame ≤ e)
    (hcurve : findHideRenderCurve obj = some curve)
    (hkfs : sortKeyframes curve.keyframes = first :: rest)
    (hvisible : prevValue first (first :: rest) frame < hiddenThreshold) :
    isEligibleInRange upper obj s e = true := by
  rw [isEligibleInRange_iff upper s e hcurve hkfs]
  have hsorted : ((first :: rest).filter (·.frame ≤ frame)).Pairwise fun a b => a.frame ≤ b.frame :=
    (hkfs ▸ pairwise_sortKeyframes curve.keyframes).filter _
  -- a keyframe in the range shows the object, or the value is the one that is held at its start
  have hprev : prevValue first (first :: rest) s = prevValue first (first :: rest) frame ∨
      ∃ v ∈ valuesInRange (first :: rest) s e, v < hiddenThreshold := by
    unfold prevValue at hvisible ⊢
    cases hlast : ((first :: rest).filter (·.frame ≤ frame)).getLast? with
    | none =>
      have hnone : (first :: rest).filter (·.frame ≤ s) = [] := by
        refine List.filter_eq_nil_iff.2 fun x hx => ?_
        have := List.filter_eq_nil_iff.1 (List.getLast?_eq_none_iff.1 hlast) x hx
        simp only [decide_eq_true_eq] at this ⊢
        omega
      rw [hnone]
      exact .inl rfl
    | some k =>
      rw [hlast] at hvisible
      obtain ⟨l, hl⟩ := List.getLast?_eq_some_iff.1 hlast
      have hk : k ∈ (first :: rest).filter (·.frame ≤ frame) := by simp [hl]
      obtain ⟨hmem, hkframe⟩ := List.mem_filter.1 hk
      have hkframe : k.frame ≤ frame := by simpa using hkframe
      by_cases hks : s ≤ k.frame
      · refine .inr ⟨k.value, List.mem_map.2 ⟨k, List.mem_filter.2 ⟨hmem, ?_⟩, rfl⟩, hvisible⟩
        simp only [Bool.and_eq_true, decide_eq_true_eq]
        omega
      · refine .inl ?_
        have hsame : (first :: rest).filter (·.frame ≤ s) =
            (first :: rest).filter (·.frame ≤ frame) := by
          refine List.filter_congr fun x hx => ?_
          rw [decide_eq_decide]
          refine ⟨fun h => h.trans hs, fun h => ?_⟩
          have hx : x ∈ l ++ [k] := hl ▸ List.mem_filter.2 ⟨hx, by simpa using h⟩
          have hle : x.frame ≤ k.frame := by
            rw [hl, List.pairwise_append] at hsorted
            rcases List.mem_append.1 hx with hx | hx
            · exact hsorted.2.2 x hx k (List.mem_singleton_self k)
            · rw [List.mem_singleton.1 hx]
          omega
        rw [hsame, hlast]
  rcases hprev with hprev | ⟨v, hv, hlt⟩
  · exact .inr (.inl (hprev ▸ hvisible.le))
  · exact .inl ⟨v, hv, hlt.le⟩

/-- Without keyframes the flag decides. -/
theorem isEligibleInRange_static (h : ∀ curve, findHideRenderCurve obj = some curve →
    sortKeyframes curve.keyframes = []) :
    isEligibleInRange upper obj s e = !obj.hideRender := by
  unfold isEligibleInRange curveIndicatesVisibleInRange
  cases hcurve : findHideRenderCurve obj with
  | none => rfl
  | some curve =>
    dsimp only
    rw [h curve hcurve]

theorem visibleAt_static (h : ∀ curve, findHideRenderCurve obj = some curve →
    sortKeyframes curve.keyframes = []) (frame : ℤ) :
    VisibleAt obj frame ↔ obj.hideRender = false := by
  unfold VisibleAt
  cases hcurve : findHideRenderCurve obj with
  | none => rfl
  | some curve =>
    dsimp only [Option.map_some]
    rw [h curve hcurve]

/-- **The two verdicts agree exactly when the keyframes are clear-cut.** -/
theorem eligibility_agrees_iff (upper : String → String) (obj : SceneObject)
    (frameStart frameEnd : ℤ) :
    Agrees upper obj frameStart frameEnd ↔ ClearCut upper obj frameStart frameEnd := by
  by_cases hstatic : ∀ curve, findHideRenderCurve obj = some curve →
      sortKeyframes curve.keyframes = []
  · refine iff_of_true ⟨?_, fun frame _ _ hvisible => ?_⟩ fun curve first rest hcurve hkfs => ?_
    · rw [isEligibleInRange_static hstatic, evaluateEligibility_static hstatic]
    · rw [isEligibleInRange_static hstatic, evaluateEligibility_static hstatic,
        (visibleAt_static hstatic frame).1 hvisible]
      exact ⟨rfl, rfl⟩
    · rw [hstatic curve hcurve] at hkfs
      cases hkfs
  push Not at hstatic
  obtain ⟨curve, hcurve, hne⟩ := hstatic
  obtain ⟨first, rest, hkfs⟩ := List.exists_cons_of_ne_nil hne
  have htyped := isEligibleInRange_iff upper frameStart frameEnd hcurve hkfs
  have hdict := evaluateEligibility_iff frameStart frameEnd hcurve hkfs
  constructor
  · rintro ⟨hsame, -⟩ curve' first' rest' hcurve' hkfs'
    obtain rfl := Option.some.inj (hcurve.symm.trans hcurve')
    obtain ⟨rfl, rfl⟩ := List.cons.inj (hkfs.symm.trans hkfs')
    rw [hsame] at htyped
    by_cases hshown : evaluateEligibility obj.asdict frameStart frameEnd = true
    · exact (hdict.1 hshown).imp_right .inl
    · have hhidden := mt htyped.2 hshown
      push Not at hhidden
      refine .inr (.inr ⟨hhidden.1, hhidden.2.1, ?_⟩)
      cases hconstant : isConstant upper curve with
      | true => exact .inl rfl
      | false => exact .inr (hhidden.2.2 hconstant)
  · intro hclear
    have hsame : isEligibleInRange upper obj frameStart frameEnd =
        evaluateEligibility obj.asdict frameStart frameEnd := by
      rw [Bool.eq_iff_iff, htyped, hdict]
      constructor
      · intro hshown
        rcases hclear curve first rest hcurve hkfs with h | h | ⟨hvalues, hheld, hnext⟩
        · exact .inl h
        · exact .inr h
        · exfalso
          rcases hshown with ⟨v, hv, hle⟩ | hle | ⟨hconstant, hle⟩
          · exact (hvalues v hv).not_ge hle
          · exact hheld.not_ge hle
          · rcases hnext with h | h
            · rw [h] at hconstant
              cases hconstant
            · exact h.not_ge hle
      · rintro (⟨v, hv, hlt⟩ | ⟨-, hlt⟩)
        · exact .inl ⟨v, hv, hlt.le⟩
        · exact .inr (.inl hlt.le)
    refine ⟨hsame, fun frame hs he hvisible => ?_⟩
    unfold VisibleAt at hvisible
    rw [hcurve, Option.map_some, hkfs] at hvisible
    have hshown : isEligibleInRange upper obj frameStart frameEnd = true :=
      isEligible_of_visibleAt hs he hcurve hkfs hvisible
    exact ⟨hshown, hsame ▸ hshown⟩

/-- An object whose flag is animated by two keyframes. -/
def animatedObject (first second : KeyframeInfo) : SceneObject where
  animation := some [{ dataPath := "hide_render", keyframes := [first, second] }]

/-- An object that is shown until a keyframe in the middle of the range hides it: the dictionary is
judged by that keyframe alone. -/
theorem hidden_within_range : ¬ ∀ (upper : String → String) (obj : SceneObject)
    (frameStart frameEnd : ℤ), frameStart ≤ frameEnd → Agrees upper obj frameStart frameEnd := by
  intro hclaim
  have hagrees := (hclaim id (animatedObject { frame := 0, value := 0 } { frame := 20, value := 1 })
    10 30 (by decide)).1
  revert hagrees
  decide +kernel

end Aidars.Visibility
