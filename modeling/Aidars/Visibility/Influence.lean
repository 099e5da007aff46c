import Aidars.Foundations.SinglePass
import Mathlib.Logic.Relation
import Mathlib.Data.List.Perm.Basic
import Mathlib.Data.List.Infix

/-!
# What influences a render

`analyzeInfluences` starts from the objects in view and adds what they depend on: their ancestors,
all lights, what is simulated or moved by bones, and what constraints connect with any of these.
The ancestors are climbed first, and the constraints are gone through once, in the order in which
the scene lists its objects. `mem_analyzeInfluences` says what is found: the ids to which a chain of
constraints leads that the loop meets one after the other.
-/

namespace Aidars.Visibility

open SinglePass

/-! ## Scenes -/

/-- An id and a name. -/
structure NamedDict where
  id : Option String := none
  name : Option String := none

/-- What influences read of an object. -/
structure InfluenceDict where
  id : Option String := none
  name : Option String := none
  type : Option String := none
  parent : Option String := none
  /-- The types of the modifiers. -/
  modifiers : List (Option String) := []
  /-- The number of particle systems. -/
  particleSystems : ℕ := 0
  /-- The number of bones. -/
  bones : ℕ := 0
  /-- The targets of the constraints. -/
  constraints : List (Option String) := []

/-- What influences read of a scene. -/
structure InfluenceScene where
  objects : List InfluenceDict := []
  lights : List NamedDict := []
  world : Option NamedDict := none
  environment : Option NamedDict := none

/-- The kinds of objects that give light. -/
def lightTypes : List String :=
  ["LIGHT", "LAMP", "SUN", "POINT_LIGHT", "SPOT_LIGHT", "AREA_LIGHT"]

/-- The words that tell the type of a modifier that simulates. -/
def simKeywords : List String :=
  ["CLOTH", "FLUID", "SMOKE", "OCEAN", "COLLISION", "DYNAMIC_PAINT", "PARTICLE", "HAIR"]

variable (upper : String → String)

namespace InfluenceDict

variable (obj : InfluenceDict)

/-- The id of an object. -/
def objId : String := obj.id.getD (obj.name.getD "")

/-- The kind of an object. -/
def objType : String := upper (obj.type.getD "")

/-- The object gives light. -/
def IsLight : Prop := obj.objType upper ∈ lightTypes

instance : Decidable (obj.IsLight upper) := inferInstanceAs (Decidable (_ ∈ _))

/-- Some modifier of the object simulates. -/
def HasSim : Prop :=
  ∃ m ∈ obj.modifiers, ∃ simKw ∈ simKeywords, simKw.toList <:+: (upper (m.getD "")).toList

instance : Decidable (obj.HasSim upper) := by unfold HasSim; infer_instance

/-- The objects that the constraints of an object name. -/
def targets : List String := (obj.constraints.filterMap fun c => c).filter (· ≠ "")

end InfluenceDict

namespace InfluenceScene

variable (scene : InfluenceScene)

/-- The ids of the objects. -/
def ids : List String := scene.objects.map (·.objId)

/-- The object of an id. Of several objects with one id the last one counts. -/
def objMap (id : String) : Option InfluenceDict :=
  scene.objects.reverse.find? (·.objId = id)

/-- The id of the parent of an object, if the scene has one. -/
def sceneParent (obj : InfluenceDict) : Option String :=
  obj.parent.filter fun p => p ≠ "" ∧ p ∈ scene.ids

/-- The ids of the lights that the scene lists apart. -/
def lightIds : List String :=
  (scene.lights.map fun l => l.id.getD (l.name.getD "light")).filter (· ≠ "")

/-- The id of the world. -/
def worldId : Option String :=
  (scene.world <|> scene.environment).map fun w => w.id.getD (w.name.getD "World")

/-! ## The analysis -/

theorem mem_ids_of_sceneParent {obj : InfluenceDict} {p : String}
    (h : scene.sceneParent obj = some p) : p ∈ scene.ids := by
  obtain ⟨-, h⟩ := Option.filter_eq_some_iff.mp h
  simp only [decide_eq_true_eq] at h
  exact h.2

/-- Climb from an object to its ancestors. The chain so far stops the climb in a circle. -/
def climb (visitedChain required : PySet String) (currId : String) : PySet String :=
  match scene.objMap currId with
  | none => required
  | some obj =>
    match _h : scene.sceneParent obj with
    | none => required
    | some parentId =>
      if parentId ∈ visitedChain then required
      else climb (visitedChain.insert parentId) (required.insert parentId) parentId
termination_by (scene.ids.filter (· ∉ visitedChain)).length
decreasing_by
  have hmem := scene.mem_ids_of_sceneParent _h
  rename_i hnew
  have hsub : (scene.ids.filter (· ∉ visitedChain.insert parentId)).Sublist
      (scene.ids.filter (· ∉ visitedChain)) :=
    List.monotone_filter_right _ fun a ha => by simp_all
  refine Nat.lt_of_le_of_ne hsub.length_le fun heq => ?_
  have hin : parentId ∈ scene.ids.filter (· ∉ visitedChain.insert parentId) := by
    rw [hsub.eq_of_length heq]
    simp [hmem, hnew]
  simp at hin

/-- Add the ancestors of all that is required. -/
def addParents (required : PySet String) : PySet String :=
  required.toList.foldl (fun acc id => scene.climb (PySet.ofList [id]) acc id) required

/-- Add the lights. -/
def addLights (required : PySet String) : PySet String :=
  (scene.objects.filter (·.IsLight upper)).foldl (fun acc obj => acc.insert obj.objId)
    (scene.lightIds.foldl PySet.insert required)

/-- Go over the constraints of an object. -/
def scanConstraints (obj : InfluenceDict) (required : PySet String) : PySet String :=
  obj.targets.foldl (fun acc target =>
    if obj.objId ∈ acc ∨ target ∈ acc then
      if target ∈ scene.ids then (acc.insert obj.objId).insert target else acc.insert obj.objId
    else acc) required

/-- Add an object that is simulated or that bones move, and what its constraints connect. -/
def scanObject (required : PySet String) (obj : InfluenceDict) : PySet String :=
  let required :=
    if 0 < obj.particleSystems ∨ obj.HasSim upper then required.insert obj.objId else required
  let required :=
    if 0 < obj.bones ∨ obj.objType upper = "ARMATURE" then required.insert obj.objId else required
  scene.scanConstraints obj required

/-- What is required besides the objects in view. -/
def analyzeInfluences (candidateVisibleIds : PySet String) : PySet String :=
  let required := scene.addParents candidateVisibleIds
  let required := scene.addLights upper required
  let required := scene.objects.foldl (scene.scanObject upper) required
  match scene.worldId with
  | some w => required.insert w
  | none => required

end InfluenceScene

namespace InfluenceScene

variable {upper} {scene : InfluenceScene}

/-! ## Ancestors -/

/-- The object that counts for one id has the other id as its parent. -/
def IsParent (scene : InfluenceScene) (id parentId : String) : Prop :=
  ∃ obj, scene.objMap id = some obj ∧ scene.sceneParent obj = some parentId

/-- One step of the climb. -/
theorem climb_eq {visitedChain required : PySet String} {currId parentId : String}
    (h : scene.IsParent currId parentId) :
    scene.climb visitedChain required currId = if parentId ∈ visitedChain then required else
      scene.climb (visitedChain.insert parentId) (required.insert parentId) parentId := by
  obtain ⟨obj, hobj, hparent⟩ := h
  rw [climb, hobj]
  dsimp only
  split
  · next hnone => exact absurd (hparent.symm.trans hnone) (by simp)
  · next p hp =>
    obtain rfl := Option.some.inj (hparent.symm.trans hp)
    rfl

theorem climb_top {visitedChain required : PySet String} {currId : String}
    (h : ∀ p, ¬ scene.IsParent currId p) :
    scene.climb visitedChain required currId = required := by
  rw [climb]
  split
  · rfl
  · next obj hobj =>
    split
    · rfl
    · next p hp => exact absurd ⟨obj, hobj, hp⟩ (h p)

theorem IsParent.unique {id p q : String} (hp : scene.IsParent id p) (hq : scene.IsParent id q) :
    p = q := by
  obtain ⟨obj, hobj, hp⟩ := hp
  obtain ⟨obj', hobj', hq⟩ := hq
  obtain rfl := Option.some.inj (hobj.symm.trans hobj')
  exact Option.some.inj (hp.symm.trans hq)

/-- What the chain so far holds: it is required, and only its last object may have a parent outside
of it. -/
structure ClimbInv (scene : InfluenceScene) (visitedChain required : PySet String)
    (currId : String) : Prop where
  required : ∀ id ∈ visitedChain, id ∈ required
  curr : currId ∈ visitedChain
  parents : ∀ id ∈ visitedChain, id ≠ currId → ∀ p, scene.IsParent id p → p ∈ visitedChain

/-- What a climb adds: it keeps what was required, adds ancestors only, and leaves a set with the
parents of all its objects. -/
structure ClimbSpec (scene : InfluenceScene) (visitedChain required : PySet String)
    (currId : String) (result : PySet String) : Prop where
  keeps : ∀ id ∈ required, id ∈ result
  ancestors : ∀ id ∈ result, id ∈ required ∨ Relation.ReflTransGen scene.IsParent currId id
  closed : ∃ chain : PySet String, (∀ id ∈ visitedChain, id ∈ chain) ∧
    (∀ id ∈ chain, id ∈ result) ∧ ∀ id ∈ chain, ∀ p, scene.IsParent id p → p ∈ chain

/-- A climb stops where no parent is outside of the chain. -/
theorem ClimbInv.stop {visitedChain required : PySet String} {currId : String}
    (hinv : ClimbInv scene visitedChain required currId)
    (h : ∀ p, scene.IsParent currId p → p ∈ visitedChain) :
    ClimbSpec scene visitedChain required currId required where
  keeps id hid := hid
  ancestors id hid := .inl hid
  closed := by
    refine ⟨visitedChain, fun id hid => hid, hinv.required, fun id hid p hp => ?_⟩
    by_cases hcurr : id = currId
    · exact h p (hcurr ▸ hp)
    · exact hinv.parents id hid hcurr p hp

theorem ClimbInv.next {visitedChain required : PySet String} {currId parentId : String}
    (hinv : ClimbInv scene visitedChain required currId) (h : scene.IsParent currId parentId) :
    ClimbInv scene (visitedChain.insert parentId) (required.insert parentId) parentId where
  required id hid := by
    rcases PySet.mem_insert.mp hid with rfl | hid
    · exact PySet.mem_insert.mpr (.inl rfl)
    · exact PySet.mem_insert.mpr (.inr (hinv.required id hid))
  curr := PySet.mem_insert.mpr (.inl rfl)
  parents id hid hne p hp := by
    have hid := (PySet.mem_insert.mp hid).resolve_left hne
    by_cases hcurr : id = currId
    · subst hcurr
      exact PySet.mem_insert.mpr (.inl (hp.unique h))
    · exact PySet.mem_insert.mpr (.inr (hinv.parents id hid hcurr p hp))

theorem climb_spec {visitedChain required : PySet String} {currId : String}
    (hinv : ClimbInv scene visitedChain required currId) :
    ClimbSpec scene visitedChain required currId (scene.climb visitedChain required currId) := by
  induction visitedChain, required, currId using climb.induct scene with
  | case1 visitedChain required currId hnone =>
    have htop : ∀ p, ¬ scene.IsParent currId p := by
      rintro p ⟨obj, hobj, -⟩
      simp [hnone] at hobj
    rw [climb_top htop]
    exact hinv.stop fun p hp => absurd hp (htop p)
  | case2 visitedChain required currId obj hobj hnone =>
    have htop : ∀ p, ¬ scene.IsParent currId p := by
      rintro p ⟨obj', hobj', hp⟩
      obtain rfl := Option.some.inj (hobj.symm.trans hobj')
      simp [hnone] at hp
    rw [climb_top htop]
    exact hinv.stop fun p hp => absurd hp (htop p)
  | case3 visitedChain required currId obj hobj parentId hparent hin =>
    have hp : scene.IsParent currId parentId := ⟨obj, hobj, hparent⟩
    rw [climb_eq hp, if_pos hin]
    exact hinv.stop fun p hp' => hp'.unique hp ▸ hin
  | case4 visitedChain required currId obj hobj parentId hparent hnew ih =>
    have hp : scene.IsParent currId parentId := ⟨obj, hobj, hparent⟩
    rw [climb_eq hp, if_neg hnew]
    obtain ⟨hkeeps, hancestors, chain, hchain, hsub, hclosed⟩ := ih (hinv.next hp)
    refine ⟨fun id hid => hkeeps id (by simp [hid]), fun id hid => ?_,
      chain, fun id hid => hchain id (by simp [hid]), hsub, hclosed⟩
    rcases hancestors id hid with hid | hup
    · rcases PySet.mem_insert.mp hid with rfl | hid
      · exact .inr (.single hp)
      · exact .inl hid
    · exact .inr (.head hp hup)

theorem mem_of_ancestor {chain : PySet String}
    (hclosed : ∀ id ∈ chain, ∀ p, scene.IsParent id p → p ∈ chain) {v id : String}
    (hv : v ∈ chain) (h : Relation.ReflTransGen scene.IsParent v id) : id ∈ chain := by
  induction h with
  | refl => exact hv
  | tail _ hp ih => exact hclosed _ ih _ hp

/-- **The ancestors that are added** are those of the visible objects, circles included. -/
theorem mem_addParents {required : PySet String} {id : String} :
    id ∈ scene.addParents required ↔
      ∃ v ∈ required, Relation.ReflTransGen scene.IsParent v id := by
  have hstart : ∀ (acc : PySet String) (v : String), v ∈ acc →
      ClimbInv scene (PySet.ofList [v]) acc v := by
    intro acc v hv
    refine ⟨fun x hx => ?_, by simp, fun x hx hne => ?_⟩
    · obtain rfl : x = v := by simpa using hx
      exact hv
    · exact absurd (by simpa using hx) hne
  have hloop : ∀ (l : List String) (acc : PySet String), (∀ v ∈ l, v ∈ acc) →
      (id ∈ l.foldl (fun acc v => scene.climb (PySet.ofList [v]) acc v) acc ↔
        id ∈ acc ∨ ∃ v ∈ l, Relation.ReflTransGen scene.IsParent v id) := by
    intro l
    induction l with
    | nil => simp
    | cons v l ih =>
      intro acc hacc
      obtain ⟨hkeeps, hancestors, chain, hchain, hsub, hclosed⟩ :=
        climb_spec (hstart acc v (hacc v (by simp)))
      rw [List.foldl_cons, ih _ fun x hx => hkeeps x (hacc x (by simp [hx]))]
      simp only [List.exists_mem_cons_iff]
      constructor
      · rintro (h | h)
        · exact (hancestors id h).imp_right .inl
        · exact .inr (.inr h)
      · rintro (h | h | h)
        · exact .inl (hkeeps id h)
        · exact .inl (hsub id (mem_of_ancestor hclosed (hchain v (by simp)) h))
        · exact .inr h
  rw [addParents, hloop _ _ fun v hv => hv]
  constructor
  · rintro (h | h)
    · exact ⟨id, h, .refl⟩
    · exact h
  · exact .inr

end InfluenceScene

/-! ## The pass over the constraints -/

/-- What the pass meets at an object. -/
def InfluenceDict.events (obj : InfluenceDict) : List (Event String) :=
  (if 0 < obj.particleSystems ∨ obj.HasSim upper then [.mark obj.objId] else []) ++
    (if 0 < obj.bones ∨ obj.objType upper = "ARMATURE" then [.mark obj.objId] else []) ++
    obj.targets.map (.link obj.objId)

namespace InfluenceScene

/-- The ids that are required before the pass, when `up` leads from an object to its parent. -/
def Starts (scene : InfluenceScene) (visible : PySet String) (up : String → String → Prop)
    (id : String) : Prop :=
  (∃ v ∈ visible, Relation.ReflTransGen up v id) ∨ id ∈ scene.lightIds ∨
    ∃ obj ∈ scene.objects, obj.IsLight upper ∧ obj.objId = id

/-- A chain of constraints that the pass over some of the objects meets one after the other leads to
an id. -/
def ReachedIn (scene : InfluenceScene) (visible : PySet String) (objects : List InfluenceDict)
    (id : String) : Prop :=
  Reaches (· ∈ scene.ids) (scene.Starts upper visible scene.IsParent)
    (objects.flatMap (·.events upper)) id

variable {upper} {scene : InfluenceScene} {visible : PySet String}

theorem mem_addLights {id : String} :
    id ∈ scene.addLights upper (scene.addParents visible) ↔
      scene.Starts upper visible scene.IsParent id := by
  have hobj : ∀ (s : PySet String) (obj : InfluenceDict) (x : String),
      x ∈ s.insert obj.objId ↔ obj.objId = x ∨ x ∈ s := fun s obj x => by
    rw [PySet.mem_insert, eq_comm]
  have hlight : ∀ (s : PySet String) (b x : String), x ∈ s.insert b ↔ x = b ∨ x ∈ s :=
    fun _ _ _ => PySet.mem_insert
  rw [addLights, PySet.mem_foldl hobj, PySet.mem_foldl hlight, mem_addParents, Starts]
  simp only [List.mem_filter, decide_eq_true_eq, exists_eq_right', and_assoc]
  rw [or_comm, or_assoc, or_left_comm]

theorem scanObject_eq (required : PySet String) (obj : InfluenceDict) :
    scene.scanObject upper required obj =
      (obj.events upper).foldl (meet (· ∈ scene.ids)) required := by
  simp only [scanObject, InfluenceDict.events, List.foldl_append, List.foldl_map]
  split_ifs <;> rfl

theorem foldl_scanObject_eq (required : PySet String) (objects : List InfluenceDict) :
    objects.foldl (scene.scanObject upper) required =
      (objects.flatMap (·.events upper)).foldl (meet (· ∈ scene.ids)) required := by
  induction objects generalizing required with
  | nil => rfl
  | cons obj objects ih =>
    rw [List.foldl_cons, ih, List.flatMap_cons, List.foldl_append, scanObject_eq]

/-- What is required after the pass over some of the objects. -/
theorem mem_foldl_scanObject {objects : List InfluenceDict} {id : String} :
    id ∈ objects.foldl (scene.scanObject upper)
        (scene.addLights upper (scene.addParents visible)) ↔
      scene.ReachedIn upper visible objects id := by
  have hstart : (· ∈ scene.addLights upper (scene.addParents visible)) =
      scene.Starts upper visible scene.IsParent := by
    funext x
    exact propext mem_addLights
  rw [foldl_scanObject_eq, mem_foldl_meet, hstart]
  rfl

/-- **What is required in the end**: the ids that chains in the order of the objects lead to, and
the world. -/
theorem mem_analyzeInfluences {id : String} :
    id ∈ scene.analyzeInfluences upper visible ↔
      scene.ReachedIn upper visible scene.objects id ∨ scene.worldId = some id := by
  unfold analyzeInfluences
  cases scene.worldId with
  | none => simp [mem_foldl_scanObject]
  | some w =>
    dsimp only
    rw [PySet.mem_insert, mem_foldl_scanObject, Option.some.injEq]
    tauto

end InfluenceScene

end Aidars.Visibility
