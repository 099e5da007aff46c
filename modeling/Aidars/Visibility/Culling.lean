import Aidars.Visibility.Eligibility
import Aidars.Visibility.Frustum

/-!
# Culling

Which objects of a scene a camera can see: `analyze` passes over what is not eligible, keeps what
has no place in space, drops what lies outside the frustum, and goes through the rest from front to
back, dropping what nine rays do not reach.

Culling is meant to be conservative: what is dropped has a box, and the box is out of view or hidden
by boxes that are marked as solid. `conservative_of_safe` says for which scenes it is.
-/

noncomputable section

namespace Aidars.Visibility

/-! ## Scenes -/

/-- What culling reads of an object of a scene. -/
structure SceneEntry where
  /-- The object came as a text, and the other fields are those of the dictionary made of it. -/
  isText : Bool := false
  id : Option String := none
  name : Option String := none
  type : Option String := none
  flags : SceneObject ⊕ ObjectDict := .inr {}
  isPureGraphNode : Bool := false
  transform : TransformDict := {}
  boundBox : Option (List RawPoint) := none
  boundingBox : Option (List RawPoint) := none
  isSolidOpaque : Option Bool := none

/-- What culling reads of a node of a dependency graph. -/
structure NodeDict where
  kind : Option String := none
  identifier : Option String := none
  label : Option String := none

/-- The objects of a scene, and the nodes of its graph. -/
structure SceneData where
  objects : List SceneEntry := []
  nodes : List NodeDict := []

/-- The object that is made of a node. -/
def NodeDict.toEntry (n : NodeDict) : SceneEntry where
  id := some (n.identifier.getD "")
  name := some (n.label.getD (n.identifier.getD ""))
  flags := .inr { hideRender := some false }
  isPureGraphNode := true

/-- The scene and its graph in one. Without objects the nodes of the graph stand for them. -/
def combinedData (snapshot graph : SceneData) : SceneData :=
  let objects := if snapshot.objects.isEmpty then graph.objects else snapshot.objects
  let nodes := if snapshot.nodes.isEmpty then graph.nodes else snapshot.nodes
  { objects := if objects.isEmpty then
      (nodes.filter (·.kind = some "object")).map NodeDict.toEntry else objects
    nodes }

/-- The frames that are rendered. -/
structure FrameRequest where
  frameStart : ℤ := 1
  frameEnd : ℤ := 1

variable (upper : String → String) (request : FrameRequest) (camera : CameraModel)

namespace SceneEntry

/-- The identifier under which an object is eligible. -/
def eligibleId (e : SceneEntry) : String := e.id.getD (e.name.getD "")

/-- The name under which an object is eligible. -/
def eligibleName (e : SceneEntry) : String := e.name.getD e.eligibleId

/-- The identifier under which an object is culled. -/
def objId (e : SceneEntry) : String := e.id.getD (e.name.getD "Unknown")

/-- The name under which an object is culled. -/
def objName (e : SceneEntry) : String := e.name.getD e.objId

/-- The object is rendered in some frame. -/
def isEligible (e : SceneEntry) : Bool :=
  match e.flags with
  | .inl obj => isEligibleInRange upper obj request.frameStart request.frameEnd
  | .inr obj => evaluateEligibility obj request.frameStart request.frameEnd

/-- The object is a camera. -/
def isCamera (e : SceneEntry) : Bool := upper (e.type.getD "") = "CAMERA"

/-- The data of the bounding box of an object. -/
def boxData (e : SceneEntry) : Option (List RawPoint) := e.boundBox <|> e.boundingBox

/-- The box of an object in the world. -/
def computeWorldBounds (e : SceneEntry) : BoundingBox :=
  .fromCorners ((getLocalCorners e.boxData).map e.transform.apply) (e.isSolidOpaque.getD true)

end SceneEntry

/-! ## The analysis -/

/-- The identifiers and names of the eligible objects. -/
def eligibleIds (objects : List SceneEntry) : List String :=
  (objects.filter (·.isEligible upper request)).flatMap fun e => [e.eligibleId, e.eligibleName]

/-- An object that is tested against the boxes before it. -/
structure Candidate where
  entry : SceneEntry
  bounds : BoundingBox
  depth : ℝ

/-- The candidate that an object makes. -/
def candidateOf (e : SceneEntry) : Candidate where
  entry := e
  bounds := e.computeWorldBounds
  depth := (e.computeWorldBounds.corners.map (camera.along camera.dirVec)).min
    (by simpa using e.computeWorldBounds.corners_ne_nil)

/-- The objects that are not passed over. -/
def considered (objects : List SceneEntry) : List SceneEntry :=
  (objects.filter (!·.isText)).filter fun e =>
    (e.objId ∈ eligibleIds upper request objects || e.objName ∈
      eligibleIds upper request objects) &&
      !e.isCamera upper

/-- The candidates whose boxes are not outside the frustum, the nearest first. -/
def frustumCandidates (objects : List SceneEntry) : List Candidate :=
  (((considered upper request objects).filter fun e =>
    !e.isPureGraphNode && testFrustum camera e.computeWorldBounds != .outside).map
      (candidateOf camera)).insertionSort fun a b => a.depth ≤ b.depth

open Classical in
/-- Go through the candidates. One that is seen stands in the way of those behind it. -/
def frontToBack : List Candidate → List Candidate → List Candidate
  | seen, [] => seen
  | seen, cand :: rest =>
    if TestOcclusion cand.bounds camera (seen.map (·.bounds)) then frontToBack seen rest
    else frontToBack (seen ++ [cand]) rest

/-- The objects that count as visible. -/
def visibleCandidates (objects : List SceneEntry) : List SceneEntry :=
  (considered upper request objects).filter (·.isPureGraphNode) ++
    (frontToBack camera [] (frustumCandidates upper request camera objects)).map (·.entry)

/-- The identifiers and names of the objects that count as visible. -/
def candidateVisibleIds (objects : List SceneEntry) : List String :=
  (visibleCandidates upper request camera objects).flatMap fun e => [e.objId, e.objName]

/-! ## Conservative culling -/

/-- The box of an object: the hull of its corners in the world. -/
def SceneEntry.box (e : SceneEntry) : Set Vec3 :=
  convexHull ℝ {p | p ∈ e.computeWorldBounds.corners}

/-- The data of the object give its box. -/
def SceneEntry.HasBox (e : SceneEntry) : Prop := e.boxData.bind parseCorners ≠ none

/-- Another object of the scene that has a box and is explicitly marked as solid and opaque. -/
structure Marked (objects : List SceneEntry) (e other : SceneEntry) : Prop where
  mem : other ∈ objects
  ne : other ≠ e
  hasBox : other.HasBox
  marked : other.isSolidOpaque = some true

/-- Boxes of marked objects hide each point of the box of the object from the camera. -/
def Hidden (objects : List SceneEntry) (e : SceneEntry) : Prop :=
  ∀ p ∈ e.box, ∃ other, Marked objects e other ∧ p ∈ shadow ℝ camera.location other.box

/-- The object has a box that lies outside the view volume or is hidden. -/
def OutOfSight (objects : List SceneEntry) (e : SceneEntry) : Prop :=
  e.HasBox ∧ (Disjoint e.box (viewVolume camera) ∨ Hidden camera objects e)

/-- An eligible object that is no camera is visible unless it is out of sight. -/
def Conservative (objects : List SceneEntry) : Prop :=
  ∀ e ∈ objects, e.isEligible upper request = true → e.isCamera upper = false →
    e ∈ visibleCandidates upper request camera objects ∨ OutOfSight camera objects e

/-- The object is found under a name: it is no bare text and brings an identifier or a name (or some
object goes by the name that stands in for one). -/
def Addressable (objects : List SceneEntry) (e : SceneEntry) : Prop :=
  e.isText = false ∧
    (e.id ≠ none ∨ e.name ≠ none ∨ "Unknown" ∈ eligibleIds upper request objects)

/-- Whenever it is the turn of the object, the nine rays to it are stopped by what is seen. -/
def RaysStopped (objects : List SceneEntry) (e : SceneEntry) : Prop :=
  ∀ before after,
    frustumCandidates upper request camera objects = before ++ candidateOf camera e :: after →
    TestOcclusion e.computeWorldBounds camera
      ((frontToBack camera [] before).map (·.bounds))

/-- A marked object alone stops the rays to the corners: its box has its faces along the axes, and
no ray is nearly parallel to them. -/
def HiddenByOne (objects : List SceneEntry) (e : SceneEntry) : Prop :=
  ∃ other, Marked objects e other ∧
    Set.Icc other.computeWorldBounds.minPt other.computeWorldBounds.maxPt ⊆ other.box ∧
    ∀ sp ∈ e.computeWorldBounds.corners, Steep (rayDir camera.location sp) ∧
      Stops camera.location sp other.computeWorldBounds

/-- The object has a place in space, and its box is not outside the frustum. -/
def SceneEntry.inView (e : SceneEntry) : Bool :=
  !e.isPureGraphNode && testFrustum camera e.computeWorldBounds != .outside

open Classical in
/-- The boxes in view that are not behind the object. -/
def boxesBefore (others : List SceneEntry) (e : SceneEntry) : List BoundingBox :=
  ((others.filter (·.inView camera)).filter fun other =>
    (candidateOf camera other).depth ≤ (candidateOf camera e).depth).map (·.computeWorldBounds)

/-- The boxes of the other objects that are in view and not behind the object, marked or not, stop
the nine rays to it. -/
def Blocked (objects : List SceneEntry) (e : SceneEntry) : Prop :=
  ∃ before after, considered upper request objects = before ++ e :: after ∧
    TestOcclusion e.computeWorldBounds camera (boxesBefore camera (before ++ after) e)

/-- The tests can do no harm to an object. Found under no name it has a box, which is outside the
frustum or hidden by one that is marked; without a box its unit cube is in view, and is not blocked;
and a box in view that is blocked is hidden by one that is marked. -/
structure Safe (objects : List SceneEntry) (e : SceneEntry) : Prop where
  nameless : ¬Addressable upper request objects e → e.HasBox ∧
    (testFrustum camera e.computeWorldBounds = .outside ∨ HiddenByOne camera objects e)
  boxless : e.isPureGraphNode = false → ¬e.HasBox →
    testFrustum camera e.computeWorldBounds ≠ .outside ∧ ¬Blocked upper request camera objects e
  boxed : e.isPureGraphNode = false → e.HasBox →
    testFrustum camera e.computeWorldBounds ≠ .outside → Blocked upper request camera objects e →
    HiddenByOne camera objects e

variable {upper request camera} {objects : List SceneEntry} {e : SceneEntry}
  {cand : Candidate} {seen l before after : List Candidate}

/-! ### The front-to-back pass -/

theorem frontToBack_cons_of_occluded (rest : List Candidate)
    (h : TestOcclusion cand.bounds camera (seen.map (·.bounds))) :
    frontToBack camera seen (cand :: rest) = frontToBack camera seen rest := by
  rw [frontToBack, if_pos h]

theorem frontToBack_cons_of_not_occluded (rest : List Candidate)
    (h : ¬TestOcclusion cand.bounds camera (seen.map (·.bounds))) :
    frontToBack camera seen (cand :: rest) = frontToBack camera (seen ++ [cand]) rest := by
  rw [frontToBack, if_neg h]

/-- A candidate is seen if a ray reaches it when it is its turn. -/
theorem mem_frontToBack :
    cand ∈ frontToBack camera seen l ↔ cand ∈ seen ∨ ∃ before after,
      l = before ++ cand :: after ∧
        ¬TestOcclusion cand.bounds camera ((frontToBack camera seen before).map (·.bounds)) := by
  induction l generalizing seen with
  | nil => simp [frontToBack]
  | cons first rest ih =>
    by_cases h : TestOcclusion first.bounds camera (seen.map (·.bounds))
    · rw [frontToBack_cons_of_occluded rest h, ih]
      refine or_congr_right ⟨?_, ?_⟩
      · rintro ⟨before, after, rfl, hreach⟩
        refine ⟨first :: before, after, rfl, ?_⟩
        rwa [frontToBack_cons_of_occluded before h]
      · rintro ⟨before, after, hsplit, hreach⟩
        rcases before with _ | ⟨_, before⟩
        · obtain ⟨rfl, -⟩ := List.cons.inj hsplit
          exact absurd h hreach
        · obtain ⟨rfl, rfl⟩ := List.cons.inj hsplit
          rw [frontToBack_cons_of_occluded before h] at hreach
          exact ⟨before, after, rfl, hreach⟩
    · rw [frontToBack_cons_of_not_occluded rest h, ih, List.mem_append, List.mem_singleton,
        or_assoc]
      refine or_congr_right ⟨?_, ?_⟩
      · rintro (rfl | ⟨before, after, rfl, hreach⟩)
        · exact ⟨[], rest, rfl, h⟩
        · refine ⟨first :: before, after, rfl, ?_⟩
          rwa [frontToBack_cons_of_not_occluded before h]
      · rintro ⟨before, after, hsplit, hreach⟩
        rcases before with _ | ⟨_, before⟩
        · exact .inl (List.cons.inj hsplit).1.symm
        · obtain ⟨rfl, rfl⟩ := List.cons.inj hsplit
          rw [frontToBack_cons_of_not_occluded before h] at hreach
          exact .inr ⟨before, after, rfl, hreach⟩

/-! ### What is kept -/

theorem mem_frustumCandidates :
    cand ∈ frustumCandidates upper request camera objects ↔
      ∃ e ∈ considered upper request objects, e.isPureGraphNode = false ∧
        testFrustum camera e.computeWorldBounds ≠ .outside ∧ candidateOf camera e = cand := by
  simp only [frustumCandidates, List.mem_insertionSort, List.mem_map, List.mem_filter,
    Bool.and_eq_true, Bool.not_eq_true', bne_iff_ne, and_assoc]

theorem candidateOf_injective : Function.Injective (candidateOf camera) := by
  intro e e' h
  exact congrArg Candidate.entry h

theorem mem_map_entry_frontToBack :
    e ∈ (frontToBack camera [] (frustumCandidates upper request camera objects)).map (·.entry) ↔
      candidateOf camera e ∈ frontToBack camera [] (frustumCandidates upper request camera objects)
    := by
  rw [List.mem_map]
  refine ⟨?_, fun h => ⟨_, h, rfl⟩⟩
  rintro ⟨cand, hcand, rfl⟩
  obtain hnil | ⟨before, after, hsplit, -⟩ := mem_frontToBack.mp hcand
  · exact absurd hnil List.not_mem_nil
  · have hmem : cand ∈ frustumCandidates upper request camera objects := by
      rw [hsplit]
      exact List.mem_append_right _ List.mem_cons_self
    obtain ⟨e, -, -, -, rfl⟩ := mem_frustumCandidates.mp hmem
    exact hcand

/-- **What culling keeps**: the objects without a place in space, and the objects in view that a ray
reaches. -/
theorem mem_visibleCandidates :
    e ∈ visibleCandidates upper request camera objects ↔
      e ∈ considered upper request objects ∧ (e.isPureGraphNode = true ∨
        (testFrustum camera e.computeWorldBounds ≠ .outside ∧
          ¬RaysStopped upper request camera objects e)) := by
  rw [visibleCandidates, List.mem_append, List.mem_filter, mem_map_entry_frontToBack,
    mem_frontToBack]
  constructor
  · rintro (⟨hmem, hpure⟩ | hnil | ⟨before, after, hsplit, hreach⟩)
    · exact ⟨hmem, .inl hpure⟩
    · exact absurd hnil List.not_mem_nil
    · have hcand : candidateOf camera e ∈ frustumCandidates upper request camera objects := by
        rw [hsplit]
        exact List.mem_append_right _ List.mem_cons_self
      obtain ⟨e', hmem, -, hview, heq⟩ := mem_frustumCandidates.mp hcand
      obtain rfl := candidateOf_injective heq
      exact ⟨hmem, .inr ⟨hview, fun hstop => hreach (hstop before after hsplit)⟩⟩
  · rintro ⟨hmem, hpure | ⟨hview, hreach⟩⟩
    · exact .inl ⟨hmem, hpure⟩
    · cases hpure : e.isPureGraphNode with
      | true => exact .inl ⟨hmem, rfl⟩
      | false =>
        simp only [RaysStopped, not_forall] at hreach
        obtain ⟨before, after, hsplit, hreach⟩ := hreach
        exact .inr (.inr ⟨before, after, hsplit, hreach⟩)

/-! ### What is found under a name -/

/-- An object with an identifier or a name is culled as it is eligible. -/
theorem objId_eq_eligibleId (h : e.id ≠ none ∨ e.name ≠ none) : e.objId = e.eligibleId := by
  cases hid : e.id with
  | some i => simp [SceneEntry.objId, SceneEntry.eligibleId, hid]
  | none =>
    obtain ⟨n, hn⟩ := Option.ne_none_iff_exists'.mp (h.resolve_left (not_not.mpr hid))
    simp [SceneEntry.objId, SceneEntry.eligibleId, hid, hn]

theorem eligibleId_mem (hmem : e ∈ objects) (h : e.isEligible upper request = true) :
    e.eligibleId ∈ eligibleIds upper request objects :=
  List.mem_flatMap.mpr ⟨e, List.mem_filter.mpr ⟨hmem, h⟩, List.mem_cons_self⟩

theorem mem_considered_iff (hmem : e ∈ objects) (helig : e.isEligible upper request = true)
    (hcam : e.isCamera upper = false) :
    e ∈ considered upper request objects ↔ Addressable upper request objects e := by
  have hdef : e ∈ considered upper request objects ↔ e.isText = false ∧
      (e.objId ∈ eligibleIds upper request objects ∨
        e.objName ∈ eligibleIds upper request objects) := by
    simp [considered, List.mem_filter, hmem, hcam, and_comm]
  rw [hdef, Addressable]
  refine and_congr_right fun _ => ?_
  by_cases hnamed : e.id ≠ none ∨ e.name ≠ none
  · have hid := eligibleId_mem hmem helig
    rw [← objId_eq_eligibleId hnamed] at hid
    exact iff_of_true (.inl hid) (hnamed.imp_right .inl)
  · rw [not_or, not_not, not_not] at hnamed
    have hid : e.objId = "Unknown" := by simp [SceneEntry.objId, hnamed.1, hnamed.2]
    have hname : e.objName = "Unknown" := by simp [SceneEntry.objName, hnamed.2, hid]
    simp [hid, hname, hnamed.1, hnamed.2]

/-! ### When culling is conservative -/

theorem HiddenByOne.hidden (h : HiddenByOne camera objects e) : Hidden camera objects e := by
  obtain ⟨other, hmarked, hfills, hstops⟩ := h
  intro p hp
  exact ⟨other, hmarked, shadow_mono hfills (hull_subset_shadow_of_stops hstops hp)⟩

theorem outOfSight_of_outside (hbox : e.HasBox)
    (h : testFrustum camera e.computeWorldBounds = .outside) : OutOfSight camera objects e :=
  ⟨hbox, .inl (disjoint_viewVolume h)⟩

theorem TestOcclusion.mono {bounds : BoundingBox} {blockers blockers' : List BoundingBox}
    (h : TestOcclusion bounds camera blockers) (hsub : blockers ⊆ blockers') :
    TestOcclusion bounds camera blockers' := by
  obtain ⟨hne, hrays⟩ := h
  refine ⟨fun hnil => hne (List.subset_nil.mp (hnil ▸ hsub)), fun sp hsp => ?_⟩
  obtain ⟨hfar, blocker, hblocker, hstops⟩ := hrays sp hsp
  exact ⟨hfar, blocker, hsub hblocker, hstops⟩

/-- What comes before an object in the pass is another object in view that is not behind it. -/
theorem subset_boxesBefore {first last : List SceneEntry}
    (hsplit : considered upper request objects = first ++ e :: last)
    (hview : e.inView camera = true)
    (hcands : frustumCandidates upper request camera objects =
      before ++ candidateOf camera e :: after) :
    before.map (·.bounds) ⊆ boxesBefore camera (first ++ last) e := by
  have hperm : (before ++ candidateOf camera e :: after).Perm
      (((first ++ e :: last).filter (·.inView camera)).map (candidateOf camera)) := by
    rw [← hcands, ← hsplit]
    exact List.perm_insertionSort _ _
  rw [List.filter_append, List.filter_cons_of_pos hview, List.map_append, List.map_cons] at hperm
  have hothers : (before ++ after).Perm
      (((first ++ last).filter (·.inView camera)).map (candidateOf camera)) := by
    rw [List.filter_append, List.map_append]
    exact ((List.perm_middle.symm.trans hperm).trans List.perm_middle).cons_inv
  have hsorted : (before ++ candidateOf camera e :: after).Pairwise
      fun a b => a.depth ≤ b.depth := by
    rw [← hcands]
    exact List.pairwise_insertionSort _ _
  intro box hbox
  obtain ⟨cand, hcand, rfl⟩ := List.mem_map.mp hbox
  have hdepth : cand.depth ≤ (candidateOf camera e).depth :=
    (List.pairwise_append.mp hsorted).2.2 cand hcand _ List.mem_cons_self
  obtain ⟨other, hother, rfl⟩ := List.mem_map.mp (hothers.subset (List.mem_append_left _ hcand))
  exact List.mem_map.mpr ⟨other, List.mem_filter.mpr ⟨hother, decide_eq_true hdepth⟩, rfl⟩

theorem blocked_of_raysStopped (hmem : e ∈ considered upper request objects)
    (hspace : e.isPureGraphNode = false)
    (hview : testFrustum camera e.computeWorldBounds ≠ .outside)
    (hstop : RaysStopped upper request camera objects e) :
    Blocked upper request camera objects e := by
  obtain ⟨first, last, hsplit⟩ := List.append_of_mem hmem
  have hcand : candidateOf camera e ∈ frustumCandidates upper request camera objects :=
    mem_frustumCandidates.mpr ⟨e, hmem, hspace, hview, rfl⟩
  obtain ⟨before, after, hcands⟩ := List.append_of_mem hcand
  have hin : e.inView camera = true := by simp [SceneEntry.inView, hspace, hview]
  refine ⟨first, last, hsplit, (hstop before after hcands).mono ?_⟩
  refine List.Subset.trans (List.map_subset _ fun cand hcand => ?_)
    (subset_boxesBefore hsplit hin hcands)
  obtain hnil | ⟨before, after, rfl, -⟩ := mem_frontToBack.mp hcand
  · exact absurd hnil List.not_mem_nil
  · exact List.mem_append_right _ List.mem_cons_self

theorem kept_or_outOfSight (hmem : e ∈ objects) (helig : e.isEligible upper request = true)
    (hcam : e.isCamera upper = false) (h : Safe upper request camera objects e) :
    e ∈ visibleCandidates upper request camera objects ∨ OutOfSight camera objects e := by
  rw [mem_visibleCandidates, mem_considered_iff hmem helig hcam]
  by_cases hnamed : Addressable upper request objects e
  · cases hspace : e.isPureGraphNode with
    | true => exact .inl ⟨hnamed, .inl rfl⟩
    | false =>
      have hblocked (hview : testFrustum camera e.computeWorldBounds ≠ .outside)
          (hstop : RaysStopped upper request camera objects e) :=
        blocked_of_raysStopped ((mem_considered_iff hmem helig hcam).mpr hnamed) hspace hview hstop
      by_cases hbox : e.HasBox
      · by_cases hview : testFrustum camera e.computeWorldBounds = .outside
        · exact .inr (outOfSight_of_outside hbox hview)
        · by_cases hstop : RaysStopped upper request camera objects e
          · have hone := h.boxed hspace hbox hview (hblocked hview hstop)
            exact .inr ⟨hbox, .inr hone.hidden⟩
          · exact .inl ⟨hnamed, .inr ⟨hview, hstop⟩⟩
      · obtain ⟨hview, hfree⟩ := h.boxless hspace hbox
        exact .inl ⟨hnamed, .inr ⟨hview, fun hstop => hfree (hblocked hview hstop)⟩⟩
  · obtain ⟨hbox, hout | hone⟩ := h.nameless hnamed
    · exact .inr (outOfSight_of_outside hbox hout)
    · exact .inr ⟨hbox, .inr hone.hidden⟩

/-- **When culling is conservative**: when the tests can do no harm to an eligible object that is no
camera. -/
theorem conservative_of_safe (upper : String → String) (request : FrameRequest)
    (camera : CameraModel) (snapshot graph : SceneData)
    (hsafe : ∀ e ∈ (combinedData snapshot graph).objects, e.isEligible upper request = true →
      e.isCamera upper = false →
      Safe upper request camera (combinedData snapshot graph).objects e) :
    Conservative upper request camera (combinedData snapshot graph).objects :=
  fun e hmem helig hcam => kept_or_outOfSight hmem helig hcam (hsafe e hmem helig hcam)

/-! ### Objects with and without a box -/

/-- An object behind the camera that brings no bounding box. -/
def behindCamera : SceneEntry where
  id := some "obj-cloth"
  name := some "Cloth"
  type := some "MESH"
  flags := .inr { hideRender := some false }
  transform := { location := some [some 0, some (-20), some 0] }

/-- The same object with a box. -/
def boxBehindCamera : SceneEntry :=
  { behindCamera with
    boundBox := some [[some (-1 / 2), some (-1 / 2), some (-1 / 2)],
      [some (1 / 2), some (1 / 2), some (1 / 2)]] }

/-- An object at the origin that brings no bounding box. -/
def cubeInView : SceneEntry where
  id := some "obj-cube"
  type := some "MESH"
  flags := .inr { hideRender := some false }

/-- The unit cube that stands in for its box is outside the frustum. -/
theorem testFrustum_behindCamera :
    testFrustum {} behindCamera.computeWorldBounds = .outside := by
  have hcorners : behindCamera.computeWorldBounds.corners =
      defaultCorners.map behindCamera.transform.apply := rfl
  have hdepth : ∀ p ∈ behindCamera.computeWorldBounds.corners,
      CameraModel.along {} ![0, 1, 0] p < 0.1 - conservativeTolerance := by
    rw [hcorners]
    simp [defaultCorners, cornersBetween, TransformDict.apply, behindCamera, parseVec3, parsePoint,
      scaled, rotateEuler, CameraModel.along, conservativeTolerance]
    norm_num
  simp only [testFrustum, List.forall_mem_map, worldToCamSpace_two]
  rw [if_neg (by decide), if_pos (.inl hdepth)]

/-- The cube and the box. -/
def cubeScene : SceneData where
  objects := [cubeInView, boxBehindCamera]

theorem testFrustum_cubeInView : testFrustum {} cubeInView.computeWorldBounds ≠ .outside := by
  have hcorners : cubeInView.computeWorldBounds.corners =
      defaultCorners.map cubeInView.transform.apply := rfl
  have happly : ∀ p, cubeInView.transform.apply p = p := by
    intro p
    ext i
    fin_cases i <;>
      simp [cubeInView, TransformDict.apply, parseVec3, parsePoint, scaled, rotateEuler]
  have hin : ∀ c ∈ cubeInView.computeWorldBounds.corners.map (worldToCamSpace {}),
      CornerInside {} c := by
    intro c hc
    obtain ⟨p, hp, rfl⟩ := List.mem_map.mp hc
    rw [hcorners, List.map_congr_left fun q _ => happly q, List.map_id'] at hp
    exact cornerInside_default (abs_le_half hp 0) (abs_le_half hp 1) (abs_le_half hp 2)
  exact (testFrustum_perspective (by decide) (not_beyondPlane_of_inside (by decide) hin)).1

/-- A box behind the camera cannot block the cube. -/
theorem not_blocked_cubeInView :
    ¬Blocked id {} {} (combinedData cubeScene {}).objects
      cubeInView := by
  rintro ⟨before, after, hsplit, hne, -⟩
  have hsub : (cubeInView :: (before ++ after)).Subperm [cubeInView, boxBehindCamera] := by
    refine (List.perm_middle.symm.subperm).trans ?_
    rw [← hsplit]
    exact (List.filter_sublist.trans List.filter_sublist).subperm
  have hothers : ∀ other ∈ before ++ after, other = boxBehindCamera := fun other hother =>
    List.mem_singleton.mp ((List.subperm_cons _).mp hsub |>.subset hother)
  have hbox : boxBehindCamera.inView {} = false := by
    have houtside : testFrustum {} boxBehindCamera.computeWorldBounds = .outside :=
      testFrustum_behindCamera
    simp [SceneEntry.inView, houtside]
  have hnone : (before ++ after).filter (·.inView {}) = [] := by
    rw [List.filter_eq_nil_iff]
    intro other hother
    rw [hothers other hother, hbox]
    exact Bool.false_ne_true
  rw [boxesBefore, hnone] at hne
  exact hne rfl

/-- A cube in view is kept, and a box behind the camera is dropped. -/
theorem conservative_of_safe_cube :
    Conservative id {} {} (combinedData cubeScene {}).objects := by
  refine conservative_of_safe id {} {} cubeScene {} ?_
  rintro e hmem - -
  rcases List.mem_cons.mp hmem with rfl | hmem
  · have hnamed : Addressable id {} (combinedData cubeScene {}).objects
        cubeInView := ⟨rfl, .inl nofun⟩
    exact
      { nameless := fun h => absurd hnamed h
        boxless := fun _ _ => ⟨testFrustum_cubeInView, not_blocked_cubeInView⟩
        boxed := fun _ hbox => absurd rfl hbox }
  · obtain rfl := List.mem_singleton.mp hmem
    have hnamed : Addressable id {} (combinedData cubeScene {}).objects
        boxBehindCamera := ⟨rfl, .inl nofun⟩
    exact
      { nameless := fun h => absurd hnamed h
        boxless := fun _ hbox => absurd nofun hbox
        boxed := fun _ _ hview => absurd testFrustum_behindCamera hview }

/-- The object without a box is dropped although nothing is known about where it reaches. -/
theorem boxless_dropped :
    ¬Conservative id {} {} (combinedData { objects := [behindCamera] } {}).objects := by
  intro h
  have hmem : behindCamera ∈ (combinedData { objects := [behindCamera] } {}).objects :=
    List.mem_cons_self
  rcases h behindCamera hmem (by decide) (by decide) with hkept | hout
  · rcases (mem_visibleCandidates.mp hkept).2 with hpure | ⟨hview, -⟩
    · cases hpure
    · exact hview testFrustum_behindCamera
  · exact hout.1 rfl

end Aidars.Visibility

end
