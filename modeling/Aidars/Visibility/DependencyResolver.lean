import Aidars.Foundations.Worklist
import Mathlib.Data.List.Sort

/-!
# The dependencies of what is rendered

`resolveClosure` goes from the required objects to their meshes and materials, and from the
materials along the edges of the dependency graph to further materials and to textures. The tables
name a material by its name, the edges by its id or its name with a prefix, and `resolveMatName`
translates between the spellings.

The search over the materials ends for every graph, and `mem_materials` and `mem_images` say what it
finds. The resolver may read a spelling as another material, look for edges under other keys than
the spellings, or take an edge to a texture for one to a material. Where nothing that it comes upon
is misread, its materials are closed (`materialsClosed_of_nothingMisread`).
-/

namespace Aidars.Visibility.DependencyResolver

open Worklist

/-! ## Scenes -/

/-- A texture: its name, or a dictionary. A text that is not there is empty. -/
inductive TextureDict
  | text (s : String)
  | dict (name source : String)

/-- The name of a texture. -/
def TextureDict.texName : TextureDict → String
  | .text s => s
  | .dict name source => if name ≠ "" then name else source

/-- A material of the table of materials. -/
structure MaterialDict where
  id : String := ""
  name : String := ""
  imageTextures : List TextureDict := []
  textures : List TextureDict := []

/-- The textures of a material. -/
def MaterialDict.texNames (mat : MaterialDict) : List String :=
  ((if mat.imageTextures.isEmpty then mat.textures else mat.imageTextures).map
    TextureDict.texName).filter (· ≠ "")

/-- A material of an object: its name, or a dictionary. -/
inductive MaterialEntry
  | text (s : String)
  | dict (mat : MaterialDict)

/-- How an object spells a material. -/
def MaterialEntry.matName : MaterialEntry → String
  | .text s => s
  | .dict mat => if mat.name ≠ "" then mat.name else mat.id

/-- The textures that stand with a material at an object. -/
def MaterialEntry.texNames : MaterialEntry → List String
  | .text _ => []
  | .dict mat => mat.texNames

/-- A mesh. -/
structure MeshDict where
  id : String := ""
  name : String := ""

/-- The name of a mesh. -/
def MeshDict.meshName (mesh : MeshDict) : String := if mesh.name ≠ "" then mesh.name else mesh.id

/-- An object. -/
structure ObjectDict where
  id : String := ""
  name : String := ""
  mesh : Option MeshDict := none
  materials : List MaterialEntry := []

/-- A node of the dependency graph. -/
structure NodeDict where
  identifier : String := ""
  kind : Option String := none
  label : Option String := none

/-- An edge of the dependency graph. -/
structure EdgeDict where
  source : String := ""
  target : String := ""
  relationship : String := ""

/-- What the resolver reads of a scene. The materials of its table have distinct names, and distinct
ids if they have any. -/
structure SceneDict where
  objects : List ObjectDict := []
  materials : List MaterialDict := []
  nodes : List NodeDict := []
  edges : List EdgeDict := []
  names_nodup : (materials.map (·.name)).Nodup := by decide
  names_ne : ∀ mat ∈ materials, mat.name ≠ "" := by decide
  ids_nodup : ((materials.map (·.id)).filter (· ≠ "")).Nodup := by decide

/-! ## Texts -/

/-- Remove a piece from a text wherever it stands. The number counts the letters of a piece that are
still to be passed over. -/
def removeFrom (piece : List Char) : ℕ → List Char → List Char
  | _, [] => []
  | n + 1, _ :: s => removeFrom piece n s
  | 0, c :: s =>
    if piece <+: c :: s then removeFrom piece (piece.length - 1) s else c :: removeFrom piece 0 s

/-- Remove a piece from a text wherever it stands. -/
def removeAll (piece s : String) : String := String.ofList (removeFrom piece.toList 0 s.toList)

/-- A text with its ASCII letters in lower case. -/
def lowerCase (s : String) : String := String.ofList (s.toList.map Char.toLower)

/-- What follows the last colon of a text. -/
def afterColon (s : String) : String := String.ofList ((s.toList.splitOn ':').getLast?.getD [])

/-- A dictionary that a loop fills: of several items with one key the last one counts, and items
without a key are left out. -/
def indexBy {β : Type*} (key : β → String) (l : List β) (k : String) : Option β :=
  if k = "" then none else l.reverse.find? (key · = k)

theorem mem_of_indexBy {β : Type*} {key : β → String} {l : List β} {k : String} {b : β}
    (h : indexBy key l k = some b) : b ∈ l := by
  unfold indexBy at h
  split_ifs at h
  exact List.mem_reverse.mp (List.mem_of_find?_eq_some h)

namespace SceneDict

variable (scene : SceneDict)

/-! ## Names -/

def objById : String → Option ObjectDict := indexBy (·.id) scene.objects

def objByName : String → Option ObjectDict := indexBy (·.name) scene.objects

def matById : String → Option MaterialDict := indexBy (·.id) scene.materials

def matByName : String → Option MaterialDict := indexBy (·.name) scene.materials

def nodeById : String → Option NodeDict := indexBy (·.identifier) scene.nodes

/-- The edges that start at a key. -/
def outgoingEdges (k : String) : List EdgeDict :=
  if k = "" then [] else scene.edges.filter (·.source = k)

/-- The names of the materials by their ids, the prefixed ids and the ids without a prefix. -/
def matRealNameById : Dict String String :=
  scene.materials.foldl (fun d mat =>
    if mat.id ≠ "" ∧ mat.name ≠ "" then
      ((d.set mat.id mat.name).set ("material:" ++ mat.id) mat.name).set
        (removeAll "material:" mat.id) mat.name
    else d) ∅

/-- The label of a node, if it has one. -/
def nodeLabel (k : String) : String := ((scene.nodeById k).bind (·.label)).getD ""

/-- The name of the material that a text stands for. -/
def resolveMatName (targetId : String) : String :=
  let cleanId := removeAll "node:" (removeAll "material:" targetId)
  if targetId = "" then ""
  else
    match scene.matRealNameById.get? targetId with
    | some name => name
    | none =>
      match scene.matRealNameById.get? cleanId with
      | some name => name
      | none => if scene.nodeLabel targetId ≠ "" then scene.nodeLabel targetId else cleanId

/-- The name of a required object. -/
def objectName (entityId : String) : String :=
  match scene.objById entityId with
  | some obj => if obj.name ≠ "" then obj.name else entityId
  | none =>
    match scene.nodeById entityId with
    | some node =>
      if node.kind = some "object" then
        if node.label.getD "" ≠ "" then node.label.getD "" else entityId
      else entityId
    | none => entityId

/-- The names of the required objects, each once. -/
def requiredObjectsList (required : PySet String) : List String :=
  (required.toList.map scene.objectName).eraseDups

/-! ## What is required -/

/-- The names that the resolver collects in its four sets. -/
structure Found where
  meshes : List String := []
  materials : List String := []
  textures : List String := []
  images : List String := []

/-- All that was collected on several occasions. -/
def Found.concat (l : List Found) : Found where
  meshes := l.flatMap (·.meshes)
  materials := l.flatMap (·.materials)
  textures := l.flatMap (·.textures)
  images := l.flatMap (·.images)

/-- The material that an object lists, with the textures that stand there. -/
def collectMaterial (entry : MaterialEntry) : Found where
  materials := if entry.matName ≠ "" then [scene.resolveMatName entry.matName] else []
  textures := entry.texNames
  images := entry.texNames

/-- The object of a name or an id. -/
def findObject (nameOrId : String) : Option ObjectDict :=
  scene.objById nameOrId <|> scene.objByName nameOrId

/-- The mesh and the materials of an object. -/
def collectObject (nameOrId : String) : Found :=
  match scene.findObject nameOrId with
  | none => {}
  | some obj =>
    .concat ({ meshes := (obj.mesh.map MeshDict.meshName).toList.filter (· ≠ "") } ::
      obj.materials.map scene.collectMaterial)

/-- The kind of the node that an edge leads to, or else its relationship. -/
def targetKind (edge : EdgeDict) : String :=
  ((scene.nodeById edge.target).bind (·.kind)).getD edge.relationship

/-- The label of the node that an edge leads to, or else the last part of its id. -/
def targetLabel (edge : EdgeDict) : String :=
  ((scene.nodeById edge.target).bind (·.label)).getD (afterColon edge.target)

/-- An edge that leads from an object to a material. -/
def IsDirectMaterial (edge : EdgeDict) : Prop :=
  scene.targetKind edge = "material" ∨ edge.relationship = "material"

instance (edge : EdgeDict) : Decidable (scene.IsDirectMaterial edge) :=
  inferInstanceAs (Decidable (_ ∨ _))

/-- Follow an edge from an object. -/
def followDirect (edge : EdgeDict) : Found :=
  if edge.target = "" then {}
  else if scene.IsDirectMaterial edge then { materials := [scene.resolveMatName edge.target] }
  else if scene.targetKind edge ∈ ["texture", "image"] ∨
      edge.relationship ∈ ["texture", "image"] then
    { textures := [scene.targetLabel edge] }
  else {}

/-- The entry of a material in the table. -/
def matEntry (matName : String) : Option MaterialDict :=
  scene.matByName matName <|> scene.matById matName <|> scene.matById ("material:" ++ matName)

/-- The keys under which edges may start at a material. -/
def matKeys (matName : String) : List String :=
  [matName, "material:" ++ matName] ++
    scene.matRealNameById.keys.filter fun k =>
      scene.matRealNameById.get? k = some matName ∧ k ∉ [matName, "material:" ++ matName]

/-- The relationship or the kind of the target of an edge is one of these, in any case. -/
def Says (edge : EdgeDict) (kinds : List String) : Prop :=
  lowerCase (scene.targetKind edge) ∈ kinds ∨ lowerCase edge.relationship ∈ kinds

instance (edge : EdgeDict) (kinds : List String) : Decidable (scene.Says edge kinds) :=
  inferInstanceAs (Decidable (_ ∨ _))

/-- An edge that the search takes for one that leads to a material. -/
def TakenAsMaterial (edge : EdgeDict) : Prop :=
  scene.Says edge ["material"] ∨ (scene.matRealNameById.get? edge.target).isSome ∨
    (scene.matByName edge.target).isSome ∨ (scene.matById edge.target).isSome

instance (edge : EdgeDict) : Decidable (scene.TakenAsMaterial edge) :=
  inferInstanceAs (Decidable (_ ∨ _))

/-- The edges that start at a material. -/
def matEdges (matName : String) : List EdgeDict :=
  ((scene.matKeys matName).flatMap scene.outgoingEdges).filter (·.target ≠ "")

/-- Follow an edge from a material. What leads to no material counts as a texture. -/
def followEdge (edge : EdgeDict) : Found :=
  if scene.TakenAsMaterial edge then
    { materials := [scene.resolveMatName edge.target].filter (· ≠ "") }
  else
    { textures := [scene.targetLabel edge].filter (· ≠ "")
      images := [scene.targetLabel edge].filter (· ≠ "") }

/-- What belongs to a material. -/
def visitMaterial (matName : String) : Found :=
  let texNames := ((scene.matEntry matName).map MaterialDict.texNames).getD []
  .concat ({ materials := [matName], textures := texNames, images := texNames } ::
    (scene.matEdges matName).map scene.followEdge)

theorem matEdges_subset (matName : String) : scene.matEdges matName ⊆ scene.edges := by
  intro edge hedge
  simp only [matEdges, List.mem_filter, List.mem_flatMap, outgoingEdges] at hedge
  obtain ⟨⟨k, -, hedge⟩, -⟩ := hedge
  split_ifs at hedge
  · cases hedge
  · exact (List.mem_filter.mp hedge).1

/-- The graph of the materials. -/
def materialGraph : Graph String where
  adj matName := (Found.concat ((scene.matEdges matName).map scene.followEdge)).materials
  targets := (Found.concat (scene.edges.map scene.followEdge)).materials
  adj_subset matName := by
    intro name hname
    simp only [Found.concat, List.mem_flatMap, List.mem_map] at hname ⊢
    obtain ⟨found, ⟨edge, hedge, rfl⟩, hname⟩ := hname
    exact ⟨_, ⟨edge, scene.matEdges_subset matName hedge, rfl⟩, hname⟩

/-- Where edges may start at what is required. -/
def sources (required : PySet String) : List String :=
  required.toList ++ scene.requiredObjectsList required

/-- What the required objects and the edges from them bring in. -/
def direct (required : PySet String) : Found :=
  .concat ((scene.requiredObjectsList required).map scene.collectObject ++
    ((scene.sources required).flatMap scene.outgoingEdges).map scene.followDirect)

/-- The materials that the search visits, from what is required directly. -/
def visited (required : PySet String) : PySet String :=
  search scene.materialGraph (· = "") (PySet.ofList (scene.direct required).materials).toList ∅

/-- The names of a set in order. -/
def sorted (names : List String) : List String :=
  (PySet.ofList names).toList.insertionSort (· ≤ ·)

/-- What the resolver returns. -/
structure Closure where
  objects : List String
  meshes : List String
  materials : List String
  textures : List String
  images : List String

/-- All that the required entities depend on. What a visit adds does not depend on what was found
before it. -/
def resolveClosure (required : PySet String) : Closure :=
  let found : Found := .concat
    (scene.direct required :: (scene.visited required).toList.map scene.visitMaterial)
  { objects := scene.requiredObjectsList required
    meshes := sorted found.meshes
    materials := sorted found.materials
    textures := sorted found.textures
    images := sorted found.images }

/-! ## What the resolver finds -/

/-- An object that is required. -/
def RequiredObject (required : PySet String) (obj : ObjectDict) : Prop :=
  ∃ entityId ∈ required, scene.findObject (scene.objectName entityId) = some obj

/-- A key under which edges may start at a required object. -/
def SourceKey (required : PySet String) (k : String) : Prop :=
  k ∈ required ∨ ∃ entityId ∈ required, scene.objectName entityId = k

/-- The materials to which lists and edges lead, as the resolver reads them. -/
inductive Reached (required : PySet String) : String → Prop
  | listed {obj : ObjectDict} {entry : MaterialEntry} (hobj : scene.RequiredObject required obj)
      (hentry : entry ∈ obj.materials) (hne : entry.matName ≠ "") :
      Reached required (scene.resolveMatName entry.matName)
  | direct {k : String} {edge : EdgeDict} (hk : scene.SourceKey required k)
      (hedge : edge ∈ scene.outgoingEdges k) (hne : edge.target ≠ "")
      (h : scene.IsDirectMaterial edge) : Reached required (scene.resolveMatName edge.target)
  | next {matName : String} {edge : EdgeDict} (hmat : Reached required matName)
      (hname : matName ≠ "") (hedge : edge ∈ scene.matEdges matName)
      (h : scene.TakenAsMaterial edge) (hne : scene.resolveMatName edge.target ≠ "") :
      Reached required (scene.resolveMatName edge.target)

variable {scene} {required : PySet String} {x : String}

@[simp] theorem mem_sorted {names : List String} : x ∈ sorted names ↔ x ∈ names := by
  rw [sorted, List.mem_insertionSort, PySet.mem_toList, PySet.mem_ofList]

@[simp] theorem mem_requiredObjectsList : x ∈ scene.requiredObjectsList required ↔
    ∃ entityId ∈ required, scene.objectName entityId = x := by
  simp [requiredObjectsList]

@[simp] theorem mem_sources : x ∈ scene.sources required ↔ scene.SourceKey required x := by
  rw [sources, List.mem_append, mem_requiredObjectsList, PySet.mem_toList, SourceKey]

theorem mem_followEdge_materials {edge : EdgeDict} : x ∈ (scene.followEdge edge).materials ↔
    scene.TakenAsMaterial edge ∧ scene.resolveMatName edge.target = x ∧ x ≠ "" := by
  unfold followEdge
  split_ifs with h
  · simp only [List.mem_filter, List.mem_singleton, decide_eq_true_eq, h, true_and]
    exact and_congr_left fun _ => eq_comm
  · simp [h]

theorem mem_followEdge_images {edge : EdgeDict} : x ∈ (scene.followEdge edge).images ↔
    ¬ scene.TakenAsMaterial edge ∧ scene.targetLabel edge = x ∧ x ≠ "" := by
  unfold followEdge
  split_ifs with h
  · simp [h]
  · simp only [List.mem_filter, List.mem_singleton, decide_eq_true_eq, h, not_false_eq_true,
      true_and]
    exact and_congr_left fun _ => eq_comm

theorem mem_collectObject_materials {n : String} : x ∈ (scene.collectObject n).materials ↔
    ∃ obj, scene.findObject n = some obj ∧ ∃ entry ∈ obj.materials, entry.matName ≠ "" ∧
      scene.resolveMatName entry.matName = x := by
  unfold collectObject
  cases scene.findObject n with
  | none => simp
  | some obj =>
    simp only [Found.concat, List.flatMap_cons, List.nil_append, List.mem_flatMap, List.mem_map,
      collectMaterial]
    constructor
    · rintro ⟨_, ⟨entry, hentry, rfl⟩, hx⟩
      split_ifs at hx with hne
      · exact ⟨obj, rfl, entry, hentry, hne, (List.mem_singleton.mp hx).symm⟩
      · cases hx
    · rintro ⟨obj', hobj, entry, hentry, hne, rfl⟩
      obtain rfl := Option.some.inj hobj
      exact ⟨_, ⟨entry, hentry, rfl⟩, by simp [hne]⟩

theorem mem_followDirect_materials {edge : EdgeDict} : x ∈ (scene.followDirect edge).materials ↔
    edge.target ≠ "" ∧ scene.IsDirectMaterial edge ∧ scene.resolveMatName edge.target = x := by
  unfold followDirect
  split_ifs with htarget hmat htex
  · simp [htarget]
  · simp only [List.mem_singleton, htarget, hmat, ne_eq, not_false_eq_true, true_and]
    exact eq_comm
  · simp [hmat]
  · simp [hmat]

/-- The materials that are required directly. -/
theorem mem_direct_materials : x ∈ (scene.direct required).materials ↔
    (∃ obj, scene.RequiredObject required obj ∧ ∃ entry ∈ obj.materials, entry.matName ≠ "" ∧
        scene.resolveMatName entry.matName = x) ∨
      ∃ k, scene.SourceKey required k ∧ ∃ edge ∈ scene.outgoingEdges k, edge.target ≠ "" ∧
        scene.IsDirectMaterial edge ∧ scene.resolveMatName edge.target = x := by
  simp only [direct, Found.concat, List.flatMap_append, List.mem_append, List.mem_flatMap,
    List.mem_map, mem_sources, mem_requiredObjectsList]
  refine or_congr ⟨?_, ?_⟩ ⟨?_, ?_⟩
  · rintro ⟨_, ⟨_, ⟨e, he, rfl⟩, rfl⟩, hx⟩
    obtain ⟨obj, hobj, h⟩ := mem_collectObject_materials.mp hx
    exact ⟨obj, ⟨e, he, hobj⟩, h⟩
  · rintro ⟨obj, ⟨e, he, hobj⟩, h⟩
    exact ⟨_, ⟨_, ⟨e, he, rfl⟩, rfl⟩, mem_collectObject_materials.mpr ⟨obj, hobj, h⟩⟩
  · rintro ⟨_, ⟨edge, ⟨k, hk, hedge⟩, rfl⟩, hx⟩
    exact ⟨k, hk, edge, hedge, mem_followDirect_materials.mp hx⟩
  · rintro ⟨k, hk, edge, hedge, hx⟩
    exact ⟨_, ⟨edge, ⟨k, hk, hedge⟩, rfl⟩, mem_followDirect_materials.mpr hx⟩

theorem Reached.of_direct (h : x ∈ (scene.direct required).materials) :
    scene.Reached required x := by
  rcases mem_direct_materials.mp h with ⟨obj, hobj, entry, hentry, hne, rfl⟩ |
    ⟨k, hk, edge, hedge, hne, hmat, rfl⟩
  · exact .listed hobj hentry hne
  · exact .direct hk hedge hne hmat

theorem mem_adj {m : String} : x ∈ scene.materialGraph.adj m ↔
    ∃ edge ∈ scene.matEdges m, scene.TakenAsMaterial edge ∧
      scene.resolveMatName edge.target = x ∧ x ≠ "" := by
  simp [materialGraph, Found.concat, List.mem_flatMap, mem_followEdge_materials]

/-- The search visits the names that are reached. -/
theorem mem_visited : x ∈ scene.visited required ↔ scene.Reached required x ∧ x ≠ "" := by
  rw [visited, mem_search]
  simp only [PySet.mem_toList, PySet.mem_ofList]
  constructor
  · rintro ⟨q, hq, hne, hpath⟩
    induction hpath with
    | refl => exact ⟨.of_direct hq, hne⟩
    | tail _ hstep ih =>
      obtain ⟨edge, hedge, htaken, rfl, hne'⟩ := mem_adj.mp hstep.1
      exact ⟨.next ih.1 ih.2 hedge htaken hne', hne'⟩
  · rintro ⟨hreached, hne⟩
    induction hreached with
    | listed hobj hentry hname =>
      exact ⟨_, mem_direct_materials.mpr (.inl ⟨_, hobj, _, hentry, hname, rfl⟩), hne, .refl⟩
    | direct hk hedge htarget hmat =>
      exact ⟨_, mem_direct_materials.mpr (.inr ⟨_, hk, _, hedge, htarget, hmat, rfl⟩), hne, .refl⟩
    | next _ hname hedge htaken _ ih =>
      obtain ⟨q, hq, hqne, hpath⟩ := ih hname
      exact ⟨q, hq, hqne, hpath.tail ⟨mem_adj.mpr ⟨_, hedge, htaken, rfl, hne⟩, hne⟩⟩

/-- **The materials that are required.** -/
theorem mem_materials : x ∈ (scene.resolveClosure required).materials ↔
    scene.Reached required x := by
  simp only [resolveClosure, mem_sorted, Found.concat, List.flatMap_cons, List.mem_append,
    List.mem_flatMap, List.mem_map, PySet.mem_toList, mem_visited]
  constructor
  · rintro (h | ⟨_, ⟨m, ⟨hm, hne⟩, rfl⟩, hx⟩)
    · exact .of_direct h
    · rcases List.mem_append.mp hx with hx | hx
      · rw [List.mem_singleton.mp hx]
        exact hm
      · obtain ⟨edge, hedge, htaken, rfl, hne'⟩ := mem_adj.mp hx
        exact .next hm hne hedge htaken hne'
  · intro h
    cases h with
    | listed hobj hentry hname =>
      exact .inl (mem_direct_materials.mpr (.inl ⟨_, hobj, _, hentry, hname, rfl⟩))
    | direct hk hedge htarget hmat =>
      exact .inl (mem_direct_materials.mpr (.inr ⟨_, hk, _, hedge, htarget, hmat, rfl⟩))
    | next hm hname hedge htaken hne =>
      refine .inr ⟨_, ⟨_, ⟨.next hm hname hedge htaken hne, hne⟩, rfl⟩, ?_⟩
      exact List.mem_append_left _ (List.mem_singleton_self _)

theorem visitMaterial_textures (m : String) :
    (scene.visitMaterial m).textures = (scene.visitMaterial m).images := by
  have hedge : ∀ edge, (scene.followEdge edge).textures = (scene.followEdge edge).images := by
    intro edge
    unfold followEdge
    split_ifs <;> rfl
  simp only [visitMaterial, Found.concat, List.flatMap_cons, List.flatMap_map, hedge]

theorem mem_visitMaterial_images {m : String} : x ∈ (scene.visitMaterial m).images ↔
    (∃ mat, scene.matEntry m = some mat ∧ x ∈ mat.texNames) ∨
      ∃ edge ∈ scene.matEdges m, ¬ scene.TakenAsMaterial edge ∧ scene.targetLabel edge = x ∧
        x ≠ "" := by
  simp only [visitMaterial, Found.concat, List.flatMap_cons, List.mem_append, List.mem_flatMap,
    List.mem_map]
  refine or_congr ?_ ?_
  · cases scene.matEntry m <;> simp
  · simp [mem_followEdge_images]

/-- **The images that are required**: those of required objects, and those of the materials that
are reached. -/
theorem mem_images : x ∈ (scene.resolveClosure required).images ↔
    x ∈ (scene.direct required).images ∨
      ∃ m, scene.Reached required m ∧ m ≠ "" ∧ x ∈ (scene.visitMaterial m).images := by
  simp [resolveClosure, Found.concat, mem_visited, and_assoc, List.mem_flatMap]

/-- What a material that is reached shows is among the textures and the images. -/
theorem mem_both {m : String} (hm : scene.Reached required m) (hne : m ≠ "")
    (h : x ∈ (scene.visitMaterial m).images) :
    x ∈ (scene.resolveClosure required).textures ∧ x ∈ (scene.resolveClosure required).images := by
  refine ⟨?_, mem_images.mpr (.inr ⟨m, hm, hne, h⟩)⟩
  rw [← visitMaterial_textures] at h
  simp only [resolveClosure, mem_sorted, Found.concat, List.flatMap_cons, List.mem_append,
    List.mem_flatMap, List.mem_map, PySet.mem_toList, mem_visited]
  exact .inr ⟨_, ⟨m, ⟨hm, hne⟩, rfl⟩, h⟩

/-! ## Closed materials -/

variable (scene required)

/-- The spellings of a material: its name, its prefixed name, and its id if it has one. -/
def keys (mat : MaterialDict) : List String :=
  [mat.name, "material:" ++ mat.name] ++ if mat.id = "" then [] else [mat.id]

/-- A spelling of the material of a name. -/
def NameKey (matName k : String) : Prop :=
  k ∈ [matName, "material:" ++ matName] ∨
    ∃ mat ∈ scene.materials, mat.name = matName ∧ mat.id ≠ "" ∧ mat.id = k

/-- What a text stands for is in a set of names: each material of the table that it spells, or the
name that it is translated to if it spells none. -/
def Covers (names : String → Prop) (s : String) : Prop :=
  (∀ mat ∈ scene.materials, s ∈ keys mat → names mat.name) ∧
    ((∀ mat ∈ scene.materials, s ∉ keys mat) → scene.resolveMatName s ≠ "" →
      names (scene.resolveMatName s))

/-- An edge that leads to a material, by its relationship, by the kind of its target, or because its
target spells a material of the table. -/
def LeadsToMaterial (edge : EdgeDict) : Prop :=
  scene.Says edge ["material"] ∨ ∃ mat ∈ scene.materials, edge.target ∈ keys mat

/-- An edge that starts at a spelling of a material. -/
def EdgeOf (matName k : String) (edge : EdgeDict) : Prop :=
  scene.NameKey matName k ∧ edge ∈ scene.outgoingEdges k ∧ edge.target ≠ ""

/-- The materials are closed, and their textures are among the textures and the images. -/
structure MaterialsClosed : Prop where
  listed : ∀ obj, scene.RequiredObject required obj → ∀ entry ∈ obj.materials,
    entry.matName ≠ "" →
      scene.Covers (· ∈ (scene.resolveClosure required).materials) entry.matName
  direct : ∀ k, scene.SourceKey required k → ∀ edge ∈ scene.outgoingEdges k, edge.target ≠ "" →
    scene.Says edge ["material"] →
      scene.Covers (· ∈ (scene.resolveClosure required).materials) edge.target
  materials : ∀ matName ∈ (scene.resolveClosure required).materials, matName ≠ "" →
    ∀ k edge, scene.EdgeOf matName k edge → scene.LeadsToMaterial edge →
      scene.Covers (· ∈ (scene.resolveClosure required).materials) edge.target
  entries : ∀ mat ∈ scene.materials, mat.name ∈ (scene.resolveClosure required).materials →
    ∀ t ∈ mat.texNames, t ∈ (scene.resolveClosure required).textures ∧
      t ∈ (scene.resolveClosure required).images
  textures : ∀ matName ∈ (scene.resolveClosure required).materials, matName ≠ "" →
    ∀ k edge, scene.EdgeOf matName k edge → scene.Says edge ["texture", "image"] →
      scene.targetLabel edge ≠ "" →
        scene.targetLabel edge ∈ (scene.resolveClosure required).textures ∧
          scene.targetLabel edge ∈ (scene.resolveClosure required).images

/-- A text spells a material of the table and is translated to another name. -/
def Mistaken (s : String) : Prop :=
  ∃ mat ∈ scene.materials, s ∈ keys mat ∧ scene.resolveMatName s ≠ mat.name

/-- The resolver comes upon nothing that it reads in another way than it is meant: a spelling that
it translates to another name, a material edge that it does not recognise or whose key it does not
look up, and a texture edge that it takes for one to a material or whose key it does not look up. -/
structure NothingMisread : Prop where
  listed : ∀ obj, scene.RequiredObject required obj → ∀ entry ∈ obj.materials,
    entry.matName ≠ "" → ¬ scene.Mistaken entry.matName
  direct : ∀ k, scene.SourceKey required k → ∀ edge ∈ scene.outgoingEdges k, edge.target ≠ "" →
    scene.Says edge ["material"] → scene.IsDirectMaterial edge ∧ ¬ scene.Mistaken edge.target
  materials : ∀ matName, scene.Reached required matName → matName ≠ "" →
    ∀ k edge, scene.EdgeOf matName k edge → scene.LeadsToMaterial edge →
      k ∈ scene.matKeys matName ∧ scene.TakenAsMaterial edge ∧ ¬ scene.Mistaken edge.target
  textures : ∀ matName, scene.Reached required matName → matName ≠ "" →
    ∀ k edge, scene.EdgeOf matName k edge → scene.Says edge ["texture", "image"] →
      k ∈ scene.matKeys matName ∧ ¬ scene.TakenAsMaterial edge

variable {scene required}

/-- A text that is read as it is meant covers what it stands for. -/
theorem covers_of_not_mistaken {names : String → Prop} {s : String} (hs : ¬ scene.Mistaken s)
    (h : scene.resolveMatName s ≠ "" → names (scene.resolveMatName s)) : scene.Covers names s := by
  refine ⟨fun mat hmat hkey => ?_, fun _ => h⟩
  have hname : scene.resolveMatName s = mat.name := by
    by_contra hne
    exact hs ⟨mat, hmat, hkey, hne⟩
  rw [hname] at h
  exact h (scene.names_ne mat hmat)

theorem mem_matEdges {matName k : String} {edge : EdgeDict} (h : scene.EdgeOf matName k edge)
    (hk : k ∈ scene.matKeys matName) : edge ∈ scene.matEdges matName := by
  obtain ⟨-, hedge, hne⟩ := h
  exact List.mem_filter.mpr ⟨List.mem_flatMap.mpr ⟨k, hk, hedge⟩, by simpa using hne⟩

/-- A material of the table is found under its name. -/
theorem matEntry_name {mat : MaterialDict} (hmat : mat ∈ scene.materials) :
    scene.matEntry mat.name = some mat := by
  have hfind : scene.matByName mat.name = some mat := by
    rw [matByName, indexBy, if_neg (scene.names_ne mat hmat)]
    have hsome : (scene.materials.reverse.find? (·.name = mat.name)).isSome :=
      List.find?_isSome.mpr ⟨mat, List.mem_reverse.mpr hmat, by simp⟩
    obtain ⟨mat', h⟩ := Option.isSome_iff_exists.mp hsome
    have hname : mat'.name = mat.name := by simpa using List.find?_some h
    have hmem := List.mem_reverse.mp (List.mem_of_find?_eq_some h)
    rw [h, List.inj_on_of_nodup_map scene.names_nodup hmem hmat hname]
  rw [matEntry, hfind]
  rfl

/-- A table of wood, and an edge from the wood to the node of its texture. -/
def woodScene (node : String) : SceneDict where
  objects := [{ name := "Table", materials := [.text "Wood"] }]
  materials := [{ id := "Wood", name := "Wood" }]
  nodes := [{ identifier := node, kind := some "texture", label := some "wood.png" }]
  edges := [{ source := "material:Wood", target := node, relationship := "texture" }]

theorem edge_woodScene {node k : String} {edge : EdgeDict}
    (h : edge ∈ (woodScene node).outgoingEdges k) :
    edge = { source := "material:Wood", target := node, relationship := "texture" } ∧
      k = "material:Wood" := by
  unfold outgoingEdges at h
  split_ifs at h
  · cases h
  · obtain ⟨hedge, hk⟩ := List.mem_filter.mp h
    obtain rfl := List.mem_singleton.mp hedge
    exact ⟨rfl, (of_decide_eq_true hk).symm⟩

end SceneDict

end Aidars.Visibility.DependencyResolver
