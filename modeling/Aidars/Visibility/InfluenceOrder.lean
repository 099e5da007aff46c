import Aidars.Visibility.Influence

/-!
# The order of a scene and its influences

What a render requires should be closed, with the parents of what is required and the targets of its
constraints, and should not depend on the order in which a scene lists its objects. The single pass
over the constraints may come to one before either of its ends is required, and the ancestors of
what lights, simulations and constraints add are not climbed to. `influencesClosed_iff` says for
which scenes neither makes a difference.
-/

namespace Aidars.Visibility

open SinglePass

variable (upper : String → String)

namespace InfluenceScene

variable (scene : InfluenceScene) (visible : PySet String)

/-- The scene with its objects in another order. -/
def reordered (order : List InfluenceDict) : InfluenceScene := { scene with objects := order }

/-- A set of ids has the parents of its objects and the targets of their constraints, as far as they
are in the scene. -/
def IsClosed (required : String → Prop) : Prop :=
  ∀ obj ∈ scene.objects, required obj.objId →
    (∀ p, scene.sceneParent obj = some p → required p) ∧
      ∀ t ∈ obj.targets, t ∈ scene.ids → required t

/-- What is required has what is visible, is closed, and is the same in any order of the objects. -/
structure InfluencesClosed : Prop where
  contains : ∀ id ∈ visible, id ∈ scene.analyzeInfluences upper visible
  closed : scene.IsClosed (· ∈ scene.analyzeInfluences upper visible)
  orderFree : ∀ order, order.Perm scene.objects → ∀ id,
    id ∈ (scene.reordered order).analyzeInfluences upper visible ↔
      id ∈ scene.analyzeInfluences upper visible

/-! ## What constraints link -/

/-- Some object of the one id has the other id as its parent. -/
def NamesParent (id parentId : String) : Prop :=
  ∃ obj ∈ scene.objects, obj.objId = id ∧ scene.sceneParent obj = some parentId

/-- In some order of the objects the pass has reached an id before it comes to an object. -/
def MetBefore (obj : InfluenceDict) (id : String) : Prop :=
  ∃ before after, (before ++ obj :: after).Perm scene.objects ∧
    (scene.reordered (before ++ obj :: after)).ReachedIn upper visible before id

/-- What any number of constraints links with an ancestor of a visible object, a light, or an object
that is simulated or moved by bones. A constraint on an object that shares its id with the world
counts if the pass can get to that object by itself. -/
inductive Linked : String → Prop
  | start {id : String} (h : scene.Starts upper visible scene.NamesParent id) : Linked id
  | mark {obj : InfluenceDict} (hobj : obj ∈ scene.objects)
      (h : .mark obj.objId ∈ obj.events upper) : Linked obj.objId
  | owner {obj : InfluenceDict} {t : String} (hobj : obj ∈ scene.objects) (ht : t ∈ obj.targets)
      (h : Linked t) (hworld : scene.worldId = some t → scene.MetBefore upper visible obj t) :
      Linked obj.objId
  | target {obj : InfluenceDict} {t : String} (hobj : obj ∈ scene.objects) (ht : t ∈ obj.targets)
      (hids : t ∈ scene.ids) (h : Linked obj.objId) : Linked t

/-- What is linked, and the world. -/
def LinkedOrWorld (id : String) : Prop :=
  scene.Linked upper visible id ∨ scene.worldId = some id

/-- In every order of the objects, a chain of constraints that the pass meets one after the other
leads to all that constraints link at all. -/
def LinkedInAnyOrder : Prop :=
  ∀ order, order.Perm scene.objects → ∀ id, scene.Linked upper visible id →
    (scene.reordered order).ReachedIn upper visible order id ∨ scene.worldId = some id

variable {upper scene visible} {order : List InfluenceDict}

/-! ## Orders of the objects -/

theorem mem_ids_reordered (h : order.Perm scene.objects) {id : String} :
    id ∈ (scene.reordered order).ids ↔ id ∈ scene.ids :=
  (h.map (·.objId)).mem_iff

theorem sceneParent_reordered (h : order.Perm scene.objects) (obj : InfluenceDict) :
    (scene.reordered order).sceneParent obj = scene.sceneParent obj := by
  simp only [sceneParent, mem_ids_reordered h]

/-- The object that counts for an id is one of those that have it. -/
theorem IsParent.namesParent (h : order.Perm scene.objects) {id p : String}
    (hp : (scene.reordered order).IsParent id p) : scene.NamesParent id p := by
  obtain ⟨obj, hobj, hparent⟩ := hp
  have hmem := List.mem_reverse.mp (List.mem_of_find?_eq_some hobj)
  have hid := List.find?_some hobj
  rw [sceneParent_reordered h] at hparent
  exact ⟨obj, h.mem_iff.mp hmem, by simpa using hid, hparent⟩

theorem Starts.linked (h : order.Perm scene.objects) {id : String}
    (hstart : (scene.reordered order).Starts upper visible (scene.reordered order).IsParent id) :
    scene.Linked upper visible id := by
  refine .start ?_
  rcases hstart with ⟨v, hv, hup⟩ | hlight | ⟨obj, hobj, hlight, hid⟩
  · exact .inl ⟨v, hv, Relation.ReflTransGen.mono (fun _ _ => IsParent.namesParent h) _ _ hup⟩
  · exact .inr (.inl hlight)
  · exact .inr (.inr ⟨obj, h.mem_iff.mp hobj, hlight, hid⟩)

theorem key_of_mem_events {obj : InfluenceDict} {e : Event String} (h : e ∈ obj.events upper) :
    e.key = obj.objId := by
  simp only [InfluenceDict.events, List.mem_append, List.mem_map, List.mem_ite_nil_right,
    List.mem_singleton] at h
  rcases h with (⟨-, rfl⟩ | ⟨-, rfl⟩) | ⟨t, -, rfl⟩ <;> rfl

theorem link_mem_events {obj : InfluenceDict} {k t : String} :
    .link k t ∈ obj.events upper ↔ k = obj.objId ∧ t ∈ obj.targets := by
  simp only [InfluenceDict.events, List.mem_append, List.mem_map, List.mem_ite_nil_right,
    List.mem_singleton, reduceCtorEq, and_false, false_or, Event.link.injEq]
  constructor
  · rintro ⟨t', ht, rfl, rfl⟩
    exact ⟨rfl, ht⟩
  · rintro ⟨rfl, ht⟩
    exact ⟨t, ht, rfl, rfl⟩

/-! ## Whatever the pass finds is linked -/

/-- What the pass meets at an object keeps all that is required linked. Until the object itself is
required nothing is added. -/
theorem linked_of_mem_foldl_meet (h : order.Perm scene.objects) {obj : InfluenceDict}
    (hobj : obj ∈ scene.objects) {before required : PySet String}
    (hbefore : ∀ t ∈ before, scene.Linked upper visible t ∧
      (scene.worldId = some t → scene.MetBefore upper visible obj t))
    (events : List (Event String)) (hevents : ∀ e ∈ events, e ∈ obj.events upper)
    (hlinked : ∀ id ∈ required, scene.Linked upper visible id)
    (hsub : scene.Linked upper visible obj.objId ∨ ∀ id ∈ required, id ∈ before) :
    ∀ id ∈ events.foldl (meet (· ∈ (scene.reordered order).ids)) required,
      scene.Linked upper visible id := by
  induction events generalizing required with
  | nil => exact hlinked
  | cons e events ih =>
    obtain ⟨he, hrest⟩ := List.forall_mem_cons.mp hevents
    rw [List.foldl_cons]
    cases e with
    | mark k =>
      obtain rfl : k = obj.objId := key_of_mem_events he
      have hkey : scene.Linked upper visible obj.objId := .mark hobj he
      refine ih hrest (fun id hid => ?_) (.inl hkey)
      rcases mem_meet_mark.mp hid with rfl | hid
      · exact hkey
      · exact hlinked id hid
    | link k t =>
      obtain ⟨rfl, ht⟩ := link_mem_events.mp he
      by_cases hmet : obj.objId ∈ required ∨ t ∈ required
      · have hkey : scene.Linked upper visible obj.objId := by
          rcases hmet with hkey | htarget
          · exact hlinked _ hkey
          · rcases hsub with hkey | hsub
            · exact hkey
            · exact .owner hobj ht (hbefore t (hsub t htarget)).1 (hbefore t (hsub t htarget)).2
        refine ih hrest (fun id hid => ?_) (.inl hkey)
        rcases mem_meet_link.mp hid with hid | ⟨-, rfl | ⟨rfl, hids⟩⟩
        · exact hlinked id hid
        · exact hkey
        · exact .target hobj ht ((mem_ids_reordered h).mp hids) hkey
      · rw [meet, if_neg hmet]
        exact ih hrest hlinked hsub

/-- **Whatever the pass finds is linked**, in any order of the objects. -/
theorem ReachedIn.linked (h : order.Perm scene.objects) {before after : List InfluenceDict}
    (horder : before ++ after = order) {id : String}
    (hid : (scene.reordered order).ReachedIn upper visible before id) :
    scene.Linked upper visible id := by
  induction before using List.reverseRecOn generalizing after id with
  | nil => exact Starts.linked h (reaches_nil.mp hid)
  | append_singleton before obj ih =>
    have horder' : before ++ (obj :: after) = order := by simpa using horder
    have hobj : obj ∈ scene.objects := h.mem_iff.mp (by simp [← horder])
    rw [← mem_foldl_scanObject, List.foldl_append, List.foldl_cons, List.foldl_nil,
      scanObject_eq] at hid
    refine linked_of_mem_foldl_meet h hobj (fun t ht => ?_) _ (fun e he => he) (fun t ht => ?_)
      (.inr fun t ht => ht) id hid
    · have ht := mem_foldl_scanObject.mp ht
      exact ⟨ih horder' ht, fun _ => ⟨before, after, horder' ▸ h, horder' ▸ ht⟩⟩
    · exact ih horder' (mem_foldl_scanObject.mp ht)

theorem linkedOrWorld_of_mem (h : order.Perm scene.objects) {id : String}
    (hid : id ∈ (scene.reordered order).analyzeInfluences upper visible) :
    scene.LinkedOrWorld upper visible id :=
  (mem_analyzeInfluences.mp hid).imp_left (ReachedIn.linked h (List.append_nil _))

/-! ## Whatever is linked has to be found -/

theorem objId_mem_scanObject {required : PySet String} {obj : InfluenceDict} {t : String}
    (ht : t ∈ obj.targets) (h : t ∈ scene.scanObject upper required obj) :
    obj.objId ∈ scene.scanObject upper required obj := by
  rw [scanObject_eq] at h ⊢
  rcases mem_or_key_mem_foldl (fun _ => key_of_mem_events) h with hbefore | hkey
  · exact key_mem_foldl (link_mem_events.mpr ⟨rfl, ht⟩) hbefore
  · exact hkey

theorem InfluencesClosed.mem_iff (h : scene.InfluencesClosed upper visible)
    (horder : order.Perm scene.objects) {id : String} :
    id ∈ scene.analyzeInfluences upper visible ↔
      (scene.reordered order).ReachedIn upper visible order id ∨ scene.worldId = some id := by
  rw [← h.orderFree order horder, mem_analyzeInfluences]
  rfl

/-- What the pass has reached before an object that names it brings the object in. -/
theorem objId_reachedIn {scene : InfluenceScene} {before after : List InfluenceDict}
    {obj : InfluenceDict} {t : String} (ht : t ∈ obj.targets)
    (h : scene.ReachedIn upper visible (before ++ [obj]) t) :
    scene.ReachedIn upper visible (before ++ obj :: after) obj.objId := by
  rw [← mem_foldl_scanObject, List.foldl_append, List.foldl_cons, List.foldl_nil] at h
  have hobj := objId_mem_scanObject ht h
  rw [List.append_cons, ReachedIn, List.flatMap_append]
  refine Reaches.append ?_ _
  rw [← ReachedIn, ← mem_foldl_scanObject, List.foldl_append, List.foldl_cons, List.foldl_nil]
  exact hobj

theorem InfluencesClosed.mem_of_linked (h : scene.InfluencesClosed upper visible) {id : String}
    (hid : scene.Linked upper visible id) : id ∈ scene.analyzeInfluences upper visible := by
  induction hid with
  | start hstart =>
    rcases hstart with ⟨v, hv, hup⟩ | hlight
    · induction hup with
      | refl => exact h.contains v hv
      | tail _ hp ih =>
        obtain ⟨obj, hobj, rfl, hparent⟩ := hp
        exact (h.closed obj hobj ih).1 _ hparent
    · exact mem_analyzeInfluences.mpr (.inl ⟨[], List.nil_sublist _, .start (.inr hlight)⟩)
  | mark hobj hmark =>
    have hmem := List.mem_flatMap.mpr ⟨_, hobj, hmark⟩
    refine mem_analyzeInfluences.mpr (.inl ?_)
    rw [← mem_foldl_scanObject, foldl_scanObject_eq]
    exact mem_foldl_of_mark hmem
  | @owner obj t hobj ht _ hworld ih =>
    by_cases hw : scene.worldId = some t
    · obtain ⟨before, after, horder, hmet⟩ := hworld hw
      refine (h.mem_iff horder).mpr (.inl (objId_reachedIn ht ?_))
      rw [ReachedIn, List.flatMap_append]
      exact hmet.append _
    · -- in the order with the object at its end, the pass meets the constraint with its target
      obtain ⟨before, after, hsplit⟩ := List.append_of_mem hobj
      have horder : ((before ++ after) ++ [obj]).Perm scene.objects := by
        rw [hsplit]
        exact (List.perm_append_singleton ..).trans List.perm_middle.symm
      have ht' := ((h.mem_iff horder).mp ih).resolve_right hw
      exact (h.mem_iff horder).mpr (.inl (objId_reachedIn ht ht'))
  | target hobj ht hids _ ih => exact (h.closed _ hobj ih).2 _ ht hids

/-- **When influences are closed.** What `analyzeInfluences` returns is closed and the same in every
order of the objects exactly if in every order the pass gets to all that constraints link, and the
parents of all that is linked are linked too. -/
theorem influencesClosed_iff (upper : String → String) (scene : InfluenceScene)
    (visible : PySet String) :
    scene.InfluencesClosed upper visible ↔
      scene.LinkedInAnyOrder upper visible ∧
        scene.IsClosed (scene.LinkedOrWorld upper visible) := by
  constructor
  · intro h
    have hiff : ∀ id, id ∈ scene.analyzeInfluences upper visible ↔
        scene.LinkedOrWorld upper visible id := by
      refine fun id => ⟨linkedOrWorld_of_mem (.refl _), ?_⟩
      rintro (hid | hid)
      · exact h.mem_of_linked hid
      · exact mem_analyzeInfluences.mpr (.inr hid)
    constructor
    · exact fun order horder id hid => (h.mem_iff horder).mp (h.mem_of_linked hid)
    · have hclosed := h.closed
      simp only [hiff] at hclosed
      exact hclosed
  · rintro ⟨hany, hclosed⟩
    have hiff : ∀ order, order.Perm scene.objects → ∀ id,
        id ∈ (scene.reordered order).analyzeInfluences upper visible ↔
          scene.LinkedOrWorld upper visible id := by
      refine fun order horder id => ⟨linkedOrWorld_of_mem horder, ?_⟩
      rintro (hid | hid)
      · exact mem_analyzeInfluences.mpr (hany order horder id hid)
      · exact mem_analyzeInfluences.mpr (.inr hid)
    have hself : ∀ id, id ∈ scene.analyzeInfluences upper visible ↔
        scene.LinkedOrWorld upper visible id := hiff scene.objects (.refl _)
    refine ⟨fun id hid => (hself id).mpr (.inl (.start (.inl ⟨id, hid, .refl⟩))), ?_, ?_⟩
    · simp only [hself]
      exact hclosed
    · exact fun order horder id => (hiff order horder id).trans (hself id).symm

/-! ### A rig that is listed before the object it moves -/

/-- A rig that follows a path, an object that follows the rig, and the path. -/
def riggedScene : InfluenceScene where
  objects :=
    [{ id := some "rig", constraints := [some "path"] },
      { id := some "body", constraints := [some "rig"] }, { id := some "path" }]

theorem addParents_riggedScene :
    riggedScene.addParents (.ofList ["body"]) = .ofList ["body"] := by
  have htop : ∀ p, ¬ riggedScene.IsParent "body" p := by
    rintro p ⟨obj, hobj, hp⟩
    obtain rfl := Option.some.inj (hobj.symm.trans
      (rfl : riggedScene.objMap "body" = some { id := some "body", constraints := [some "rig"] }))
    cases hp
  exact climb_top htop

/-- With the body in view the rig is required and its path is not: the pass has left the rig behind
when it comes to the body. -/
theorem path_not_required : ¬ ∀ (upper : String → String) (scene : InfluenceScene)
    (visible : PySet String), scene.InfluencesClosed upper visible := by
  intro h
  have hclosed := (h id riggedScene (.ofList ["body"])).closed
  have hresult : riggedScene.analyzeInfluences id (.ofList ["body"]) = .ofList ["rig", "body"] := by
    unfold analyzeInfluences
    rw [addParents_riggedScene]
    decide
  rw [hresult] at hclosed
  have hpath := (hclosed { id := some "rig", constraints := [some "path"] }
    List.mem_cons_self (by decide)).2 "path" (by decide) (by decide)
  revert hpath
  decide

end InfluenceScene

end Aidars.Visibility
