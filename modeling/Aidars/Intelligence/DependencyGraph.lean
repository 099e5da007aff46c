import Aidars.Packaging.Closure

/-!
# Building the dependency graph

`build` makes the dependency graph of a snapshot of a scene. It goes over the collections, images
and objects and adds a node for each thing and an edge for each relation it meets. A node is added
only if there is none of its identifier, and an edge only once.

What a step of the builder adds is stated by `Adds`, which is closed under composition and loops, so
that `adds_buildSteps` follows the text of the program. `losesNothing_iff` says for which scenes the
graph has a node of the right kind for everything: identifiers of objects and collections have no
prefix, so one of them may be taken.
-/

namespace Aidars.Intelligence

open Packaging

/-! ## Snapshots -/

/-- A material of an object. -/
structure MaterialInfo where
  name : String
  imageTextures : List String := []

/-- A modifier of an object. -/
structure ModifierInfo where
  name : String

/-- A constraint of an object. -/
structure ConstraintInfo where
  target : Option String := none

/-- The animation of an object. -/
structure AnimationInfo where
  isAnimated : Bool := false

/-- What the builder reads of an object. -/
structure SceneObject where
  name : String
  id : String
  collection : Option String := none
  parent : Option String := none
  children : List String := []
  materials : List MaterialInfo := []
  modifiers : List ModifierInfo := []
  constraints : List ConstraintInfo := []
  animation : Option AnimationInfo := none
  referencedAssets : List String := []

/-- A collection. -/
structure CollectionInfo where
  name : String
  id : String

/-- An image of the scene. -/
structure ImageDict where
  name : String
  filepath : Option String := none

/-- What the builder reads of a scene. -/
structure SceneSnapshot where
  collections : List CollectionInfo := []
  objects : List SceneObject := []
  images : List ImageDict := []

/-- A text that is there and not empty. -/
def given (s : Option String) : List String := (s.filter (· ≠ "")).toList

/-! ## The builder -/

/-- The source, the target and the relationship of an edge. -/
def edgeKey (e : GraphEdge) : String × String × String := (e.source, e.target, e.relationship)

/-- The nodes by their identifiers, and the edges by what they are. -/
structure Builder where
  nodes : Dict String GraphNode := ∅
  edges : Dict (String × String × String) GraphEdge := ∅
  nodes_keyed : ∀ k n, nodes.get? k = some n → n.identifier = k := by simp
  edges_keyed : ∀ k e, edges.get? k = some e → edgeKey e = k := by simp

/-- Add a node, unless there is one of this identifier. -/
def addNode (node : GraphNode) (b : Builder) : Builder :=
  if (b.nodes.get? node.identifier).isSome then b
  else
    { b with
      nodes := b.nodes.set node.identifier node
      nodes_keyed := fun k n h => by
        rw [Dict.get?_set] at h
        split_ifs at h with hk
        · obtain rfl := Option.some.inj h
          exact hk.symm
        · exact b.nodes_keyed k n h }

/-- Add an edge, unless it is there. -/
def addEdge (edge : GraphEdge) (b : Builder) : Builder :=
  if (b.edges.get? (edgeKey edge)).isSome then b
  else
    { b with
      edges := b.edges.set (edgeKey edge) edge
      edges_keyed := fun k e h => by
        rw [Dict.get?_set] at h
        split_ifs at h with hk
        · obtain rfl := Option.some.inj h
          exact hk.symm
        · exact b.edges_keyed k e h }

/-- Do something for each item of a list. -/
def each {α : Type*} (l : List α) (step : α → Builder → Builder) (b : Builder) : Builder :=
  l.foldl (fun b a => step a b) b

/-- Do one thing after the other. -/
def andThen (f g : Builder → Builder) (b : Builder) : Builder := g (f b)

/-- A texture of a material, and its image. -/
def addTexture (materialId textureName : String) : Builder → Builder :=
  andThen (addNode ⟨"texture:" ++ textureName, textureName, "texture"⟩) <|
  andThen (addEdge ⟨materialId, "texture:" ++ textureName, "texture"⟩) <|
  andThen (addNode ⟨"image:" ++ textureName, textureName, "image"⟩) <|
  addEdge ⟨"texture:" ++ textureName, "image:" ++ textureName, "image"⟩

/-- A material of an object. -/
def addMaterial (obj : SceneObject) (material : MaterialInfo) : Builder → Builder :=
  andThen (addNode ⟨"material:" ++ material.name, material.name, "material"⟩) <|
  andThen (addEdge ⟨obj.id, "material:" ++ material.name, "material"⟩) <|
  each material.imageTextures (addTexture ("material:" ++ material.name))

/-- A modifier of an object. -/
def addModifier (obj : SceneObject) (modifier : ModifierInfo) : Builder → Builder :=
  andThen (addNode ⟨"modifier:" ++ (obj.id ++ ":" ++ modifier.name), modifier.name, "modifier"⟩) <|
  addEdge ⟨obj.id, "modifier:" ++ (obj.id ++ ":" ++ modifier.name), "modifier"⟩

/-- The animation of an object. -/
def addAnimation (obj : SceneObject) : Builder → Builder :=
  if obj.animation.any (·.isAnimated) then
    andThen (addNode ⟨"action:" ++ obj.id, "Action:" ++ obj.name, "action"⟩) <|
    addEdge ⟨obj.id, "action:" ++ obj.id, "animation"⟩
  else id

/-- A file that an object refers to. -/
def addReference (obj : SceneObject) (reference : String) : Builder → Builder :=
  andThen (addNode ⟨"asset:" ++ reference, reference, "asset"⟩) <|
  addEdge ⟨obj.id, "asset:" ++ reference, "references"⟩

/-- All that an object depends on. -/
def addDependencies (obj : SceneObject) : Builder → Builder :=
  andThen (each obj.children fun childId => addEdge ⟨obj.id, childId, "child"⟩) <|
  andThen (each obj.constraints fun c =>
    each (given c.target) fun target => addEdge ⟨obj.id, target, "constraint"⟩) <|
  andThen (each obj.modifiers (addModifier obj)) <|
  andThen (each obj.materials (addMaterial obj)) <|
  andThen (addAnimation obj) <|
  each obj.referencedAssets (addReference obj)

/-- The steps of the builder. -/
def buildSteps (snapshot : SceneSnapshot) : Builder → Builder :=
  andThen (each snapshot.collections fun c => addNode ⟨c.id, c.name, "collection"⟩) <|
  andThen (each snapshot.images fun img =>
    each (given img.filepath) fun filepath => addNode ⟨"image:" ++ img.name, filepath, "image"⟩) <|
  andThen (each snapshot.objects fun obj => addNode ⟨obj.id, obj.name, "object"⟩) <|
  andThen (each snapshot.objects fun obj =>
    each (given obj.parent) fun parent => addEdge ⟨obj.id, parent, "parent"⟩) <|
  andThen (each snapshot.objects fun obj =>
    each (given obj.collection) fun c => addEdge ⟨obj.id, c, "collection"⟩) <|
  each snapshot.objects addDependencies

/-- The dependency graph of a scene. -/
def build (snapshot : SceneSnapshot) : DependencyGraph :=
  let b := buildSteps snapshot {}
  { nodes := b.nodes.values, edges := b.edges.values }

/-! ## The things of a scene and their relations -/

/-- A thing that the graph has a node for. Objects and collections go by their identifiers. -/
inductive Element
  | collection (id : String)
  | object (id : String)
  | image (name : String)
  | modifier (objectId name : String)
  | material (name : String)
  | texture (name : String)
  | action (objectId : String)
  | asset (reference : String)
  deriving DecidableEq

namespace Element

/-- The kind of its node. -/
def kind : Element → String
  | collection _ => "collection"
  | object _ => "object"
  | image _ => "image"
  | modifier _ _ => "modifier"
  | material _ => "material"
  | texture _ => "texture"
  | action _ => "action"
  | asset _ => "asset"

/-- The identifier of its node. -/
def identifier : Element → String
  | collection id => id
  | object id => id
  | image name => "image:" ++ name
  | modifier objectId name => "modifier:" ++ (objectId ++ ":" ++ name)
  | material name => "material:" ++ name
  | texture name => "texture:" ++ name
  | action objectId => "action:" ++ objectId
  | asset reference => "asset:" ++ reference

/-- The identifier of an object or a collection has no prefix. -/
def Bare : Element → Prop
  | collection _ => True
  | object _ => True
  | _ => False

instance : DecidablePred Bare := fun e => by cases e <;> unfold Bare <;> infer_instance

end Element

/-- What a scene has: the things for which its collections, images and objects ask. -/
def Declared (s : SceneSnapshot) : Element → Prop
  | .collection id => ∃ c ∈ s.collections, id = c.id
  | .object id => ∃ obj ∈ s.objects, id = obj.id
  | .image name => (∃ img ∈ s.images, (∃ path, path ∈ given img.filepath) ∧ name = img.name) ∨
      ∃ obj ∈ s.objects, ∃ m ∈ obj.materials, name ∈ m.imageTextures
  | .modifier objectId name => ∃ obj ∈ s.objects, ∃ m ∈ obj.modifiers,
      objectId = obj.id ∧ name = m.name
  | .material name => ∃ obj ∈ s.objects, ∃ m ∈ obj.materials, name = m.name
  | .texture name => ∃ obj ∈ s.objects, ∃ m ∈ obj.materials, name ∈ m.imageTextures
  | .action objectId => ∃ obj ∈ s.objects,
      obj.animation.any (·.isAnimated) = true ∧ objectId = obj.id
  | .asset reference => ∃ obj ∈ s.objects, reference ∈ obj.referencedAssets

/-- The relations of a scene, as edges. -/
inductive Relates (s : SceneSnapshot) : GraphEdge → Prop
  | parent {obj p} : obj ∈ s.objects → p ∈ given obj.parent → Relates s ⟨obj.id, p, "parent"⟩
  | collection {obj c} : obj ∈ s.objects → c ∈ given obj.collection →
      Relates s ⟨obj.id, c, "collection"⟩
  | child {obj c} : obj ∈ s.objects → c ∈ obj.children → Relates s ⟨obj.id, c, "child"⟩
  | constraint {obj c t} : obj ∈ s.objects → c ∈ obj.constraints → t ∈ given c.target →
      Relates s ⟨obj.id, t, "constraint"⟩
  | modifier {obj m} : obj ∈ s.objects → m ∈ obj.modifiers →
      Relates s ⟨obj.id, (Element.modifier obj.id m.name).identifier, "modifier"⟩
  | material {obj m} : obj ∈ s.objects → m ∈ obj.materials →
      Relates s ⟨obj.id, (Element.material m.name).identifier, "material"⟩
  | texture {obj m name} : obj ∈ s.objects → m ∈ obj.materials → name ∈ m.imageTextures →
      Relates s ⟨(Element.material m.name).identifier, (Element.texture name).identifier, "texture"⟩
  | image {obj m name} : obj ∈ s.objects → m ∈ obj.materials → name ∈ m.imageTextures →
      Relates s ⟨(Element.texture name).identifier, (Element.image name).identifier, "image"⟩
  | animation {obj} : obj ∈ s.objects → obj.animation.any (·.isAnimated) = true →
      Relates s ⟨obj.id, (Element.action obj.id).identifier, "animation"⟩
  | references {obj r} : obj ∈ s.objects → r ∈ obj.referencedAssets →
      Relates s ⟨obj.id, (Element.asset r).identifier, "references"⟩

/-- The kind of node from which a relationship leads. -/
def sourceKind (relationship : String) : String :=
  if relationship = "texture" then "material"
  else if relationship = "image" then "texture"
  else "object"

/-! ## What a step adds -/

/-- The things that a step asks for, and the edges. -/
structure Asked where
  element : Element → Prop
  edge : GraphEdge → Prop

/-- A step adds the edges it asks for, and a node for each identifier of a thing it asks for. A node
that it adds is of the kind of such a thing. -/
structure Adds (step : Builder → Builder) (asked : Asked) : Prop where
  node : ∀ b k n, (step b).nodes.get? k = some n → b.nodes.get? k = some n ∨
    ∃ e, asked.element e ∧ e.identifier = k ∧ e.kind = n.kind
  identifier : ∀ b k, ((step b).nodes.get? k).isSome ↔
    (b.nodes.get? k).isSome ∨ ∃ e, asked.element e ∧ e.identifier = k
  edge : ∀ b e, (step b).edges.get? (edgeKey e) = some e ↔
    b.edges.get? (edgeKey e) = some e ∨ asked.edge e

theorem edgeKey_injective : Function.Injective edgeKey := by
  intro e e' h
  obtain ⟨s, t, r⟩ := e
  obtain ⟨s', t', r'⟩ := e'
  simpa [edgeKey] using h

theorem adds_addNode (e : Element) (label : String) :
    Adds (addNode ⟨e.identifier, label, e.kind⟩) ⟨fun x => x = e, fun _ => False⟩ where
  node b k n h := by
    unfold addNode at h
    split_ifs at h with hin
    · exact .inl h
    · rw [Dict.get?_set] at h
      split_ifs at h with hk
      · obtain rfl := Option.some.inj h
        exact .inr ⟨e, rfl, hk.symm, rfl⟩
      · exact .inl h
  identifier b k := by
    unfold addNode
    split_ifs with hin
    · simp only [exists_eq_left]
      exact ⟨.inl, fun h => h.elim id fun hk => hk ▸ hin⟩
    · simp only [Dict.get?_set, exists_eq_left]
      split_ifs with hk
      · simp [hk]
      · simp [Ne.symm hk]
  edge b x := by
    unfold addNode
    split_ifs <;> simp

theorem adds_addEdge (edge : GraphEdge) :
    Adds (addEdge edge) ⟨fun _ => False, fun e => e = edge⟩ where
  node b k n h := by
    unfold addEdge at h
    split_ifs at h <;> exact .inl h
  identifier b k := by
    unfold addEdge
    split_ifs <;> simp
  edge b e := by
    unfold addEdge
    split_ifs with hin
    · -- the edge that is there under this key is the edge itself
      obtain ⟨e', he'⟩ := Option.isSome_iff_exists.mp hin
      obtain rfl := edgeKey_injective (b.edges_keyed _ _ he')
      refine ⟨.inl, ?_⟩
      rintro (h | rfl)
      · exact h
      · exact he'
    · simp only [Dict.get?_set]
      split_ifs with hk
      · obtain rfl := edgeKey_injective hk
        simp
      · have hne : e ≠ edge := fun h => hk (h ▸ rfl)
        simp [hne]

theorem adds_id : Adds id ⟨fun _ => False, fun _ => False⟩ where
  node _ _ _ h := .inl h
  identifier := by simp
  edge := by simp

theorem Adds.andThen {f g : Builder → Builder} {F G : Asked} (hf : Adds f F) (hg : Adds g G) :
    Adds (andThen f g) ⟨fun x => F.element x ∨ G.element x, fun e => F.edge e ∨ G.edge e⟩ where
  node b k n h := by
    obtain h | ⟨e, he, hk⟩ := hg.node _ k n h
    · obtain h | ⟨e, he, hk⟩ := hf.node b k n h
      · exact .inl h
      · exact .inr ⟨e, .inl he, hk⟩
    · exact .inr ⟨e, .inr he, hk⟩
  identifier b k := by
    rw [Intelligence.andThen, hg.identifier, hf.identifier, or_assoc, ← exists_or]
    simp only [or_and_right]
  edge b e := by
    rw [Intelligence.andThen, hg.edge, hf.edge, or_assoc]

theorem Adds.each {α : Type*} {l : List α} {step : α → Builder → Builder} {A : α → Asked}
    (h : ∀ a ∈ l, Adds (step a) (A a)) :
    Adds (each l step) ⟨fun x => ∃ a ∈ l, (A a).element x, fun e => ∃ a ∈ l, (A a).edge e⟩ := by
  induction l with
  | nil =>
    have hnil : Intelligence.each [] step = id := rfl
    simpa [hnil] using adds_id
  | cons a l ih =>
    have hcons : Intelligence.each (a :: l) step =
        Intelligence.andThen (step a) (Intelligence.each l step) := rfl
    have ha := (h a (by simp)).andThen (ih fun a' ha' => h a' (by simp [ha']))
    simpa only [hcons, List.exists_mem_cons_iff] using ha

theorem Adds.congr {f : Builder → Builder} {A B : Asked} (h : Adds f A)
    (helement : ∀ x, A.element x ↔ B.element x) (hedge : ∀ e, A.edge e ↔ B.edge e) :
    Adds f B where
  node b k n hn := by simpa only [helement] using h.node b k n hn
  identifier b k := by simpa only [helement] using h.identifier b k
  edge b e := by simpa only [hedge] using h.edge b e

/-! ## What the builder adds -/

theorem adds_addTexture (material name : String) :
    Adds (addTexture (Element.material material).identifier name)
      ⟨fun x => x = .texture name ∨ x = .image name,
       fun e => e = ⟨"material:" ++ material, "texture:" ++ name, "texture"⟩ ∨
        e = ⟨"texture:" ++ name, "image:" ++ name, "image"⟩⟩ := by
  refine (((adds_addNode (.texture name) name).andThen <| (adds_addEdge _).andThen <|
    (adds_addNode (.image name) name).andThen <| adds_addEdge _)).congr (fun x => ?_) fun e => ?_
  · simp
  · simp [Element.identifier]

theorem adds_addMaterial (obj : SceneObject) (m : MaterialInfo) :
    Adds (addMaterial obj m)
      ⟨fun x => x = .material m.name ∨
        ∃ name ∈ m.imageTextures, x = .texture name ∨ x = .image name,
       fun e => e = ⟨obj.id, "material:" ++ m.name, "material"⟩ ∨
        ∃ name ∈ m.imageTextures,
          e = ⟨"material:" ++ m.name, "texture:" ++ name, "texture"⟩ ∨
          e = ⟨"texture:" ++ name, "image:" ++ name, "image"⟩⟩ := by
  refine ((adds_addNode (.material m.name) m.name).andThen <| (adds_addEdge _).andThen <|
    Adds.each fun name _ => adds_addTexture m.name name).congr (fun x => ?_) fun e => ?_
  · simp
  · simp

theorem adds_addModifier (obj : SceneObject) (m : ModifierInfo) :
    Adds (addModifier obj m)
      ⟨fun x => x = .modifier obj.id m.name,
       fun e => e = ⟨obj.id, "modifier:" ++ (obj.id ++ ":" ++ m.name), "modifier"⟩⟩ := by
  refine ((adds_addNode (.modifier obj.id m.name) m.name).andThen <| adds_addEdge _).congr
    (fun x => ?_) fun e => ?_
  · simp
  · simp

theorem adds_addAnimation (obj : SceneObject) :
    Adds (addAnimation obj)
      ⟨fun x => obj.animation.any (·.isAnimated) = true ∧ x = .action obj.id,
       fun e => obj.animation.any (·.isAnimated) = true ∧
        e = ⟨obj.id, "action:" ++ obj.id, "animation"⟩⟩ := by
  unfold addAnimation
  split_ifs with h
  · refine ((adds_addNode (.action obj.id) ("Action:" ++ obj.name)).andThen <|
      adds_addEdge _).congr (fun x => ?_) fun e => ?_
    · simp [h]
    · simp [h]
  · refine adds_id.congr (fun x => ?_) fun e => ?_
    · simp [h]
    · simp [h]

theorem adds_addReference (obj : SceneObject) (reference : String) :
    Adds (addReference obj reference)
      ⟨fun x => x = .asset reference,
       fun e => e = ⟨obj.id, "asset:" ++ reference, "references"⟩⟩ := by
  refine ((adds_addNode (.asset reference) reference).andThen <| adds_addEdge _).congr
    (fun x => ?_) fun e => ?_
  · simp
  · simp

/-- The relations of one object that its dependencies make. -/
def Dependency (obj : SceneObject) (e : GraphEdge) : Prop :=
  (∃ c ∈ obj.children, e = ⟨obj.id, c, "child"⟩) ∨
  (∃ c ∈ obj.constraints, ∃ t ∈ given c.target, e = ⟨obj.id, t, "constraint"⟩) ∨
  (∃ m ∈ obj.modifiers, e = ⟨obj.id, "modifier:" ++ (obj.id ++ ":" ++ m.name), "modifier"⟩) ∨
  (∃ m ∈ obj.materials, e = ⟨obj.id, "material:" ++ m.name, "material"⟩ ∨
    ∃ name ∈ m.imageTextures, e = ⟨"material:" ++ m.name, "texture:" ++ name, "texture"⟩ ∨
      e = ⟨"texture:" ++ name, "image:" ++ name, "image"⟩) ∨
  (obj.animation.any (·.isAnimated) = true ∧ e = ⟨obj.id, "action:" ++ obj.id, "animation"⟩) ∨
  ∃ r ∈ obj.referencedAssets, e = ⟨obj.id, "asset:" ++ r, "references"⟩

theorem adds_addDependencies (obj : SceneObject) :
    Adds (addDependencies obj)
      ⟨fun x => (∃ m ∈ obj.modifiers, x = .modifier obj.id m.name) ∨
        (∃ m ∈ obj.materials, x = .material m.name ∨
          ∃ name ∈ m.imageTextures, x = .texture name ∨ x = .image name) ∨
        (obj.animation.any (·.isAnimated) = true ∧ x = .action obj.id) ∨
        ∃ r ∈ obj.referencedAssets, x = .asset r,
       Dependency obj⟩ := by
  refine ((Adds.each fun c _ => adds_addEdge ⟨obj.id, c, "child"⟩).andThen <|
    (Adds.each fun c _ => Adds.each fun t _ => adds_addEdge ⟨obj.id, t, "constraint"⟩).andThen <|
    (Adds.each fun m _ => adds_addModifier obj m).andThen <|
    (Adds.each fun m _ => adds_addMaterial obj m).andThen <|
    (adds_addAnimation obj).andThen <|
    Adds.each fun r _ => adds_addReference obj r).congr (fun x => ?_) fun e => ?_
  · simp
  · exact Iff.rfl

theorem relates_iff {s : SceneSnapshot} {e : GraphEdge} : Relates s e ↔
    (∃ obj ∈ s.objects, ∃ p ∈ given obj.parent, e = ⟨obj.id, p, "parent"⟩) ∨
    (∃ obj ∈ s.objects, ∃ c ∈ given obj.collection, e = ⟨obj.id, c, "collection"⟩) ∨
    ∃ obj ∈ s.objects, Dependency obj e := by
  constructor
  · intro h
    cases h with
    | parent hobj hp => exact .inl ⟨_, hobj, _, hp, rfl⟩
    | collection hobj hc => exact .inr (.inl ⟨_, hobj, _, hc, rfl⟩)
    | child hobj hc => exact .inr (.inr ⟨_, hobj, .inl ⟨_, hc, rfl⟩⟩)
    | constraint hobj hc ht => exact .inr (.inr ⟨_, hobj, .inr (.inl ⟨_, hc, _, ht, rfl⟩)⟩)
    | modifier hobj hm => exact .inr (.inr ⟨_, hobj, .inr (.inr (.inl ⟨_, hm, rfl⟩))⟩)
    | material hobj hm =>
      exact .inr (.inr ⟨_, hobj, .inr (.inr (.inr (.inl ⟨_, hm, .inl rfl⟩)))⟩)
    | texture hobj hm hname =>
      exact .inr (.inr ⟨_, hobj, .inr (.inr (.inr (.inl ⟨_, hm, .inr ⟨_, hname, .inl rfl⟩⟩)))⟩)
    | image hobj hm hname =>
      exact .inr (.inr ⟨_, hobj, .inr (.inr (.inr (.inl ⟨_, hm, .inr ⟨_, hname, .inr rfl⟩⟩)))⟩)
    | animation hobj ha =>
      exact .inr (.inr ⟨_, hobj, .inr (.inr (.inr (.inr (.inl ⟨ha, rfl⟩))))⟩)
    | references hobj hr =>
      exact .inr (.inr ⟨_, hobj, .inr (.inr (.inr (.inr (.inr ⟨_, hr, rfl⟩))))⟩)
  · rintro (⟨obj, hobj, p, hp, rfl⟩ | ⟨obj, hobj, c, hc, rfl⟩ | ⟨obj, hobj, h⟩)
    · exact .parent hobj hp
    · exact .collection hobj hc
    · obtain ⟨c, hc, rfl⟩ | ⟨c, hc, t, ht, rfl⟩ | ⟨m, hm, rfl⟩ | ⟨m, hm, h⟩ | ⟨ha, rfl⟩ |
        ⟨r, hr, rfl⟩ := h
      · exact .child hobj hc
      · exact .constraint hobj hc ht
      · exact .modifier hobj hm
      · obtain rfl | ⟨name, hname, rfl | rfl⟩ := h
        · exact .material hobj hm
        · exact .texture hobj hm hname
        · exact .image hobj hm hname
      · exact .animation hobj ha
      · exact .references hobj hr

/-- **What the builder adds to a graph.** -/
theorem adds_buildSteps (s : SceneSnapshot) : Adds (buildSteps s) ⟨Declared s, Relates s⟩ := by
  refine ((Adds.each fun c _ => adds_addNode (.collection c.id) c.name).andThen <|
    (Adds.each fun img _ => Adds.each fun path _ => adds_addNode (.image img.name) path).andThen <|
    (Adds.each fun obj _ => adds_addNode (.object obj.id) obj.name).andThen <|
    (Adds.each fun obj _ => Adds.each fun p _ => adds_addEdge ⟨obj.id, p, "parent"⟩).andThen <|
    (Adds.each fun obj _ => Adds.each fun c _ => adds_addEdge ⟨obj.id, c, "collection"⟩).andThen <|
    Adds.each fun obj _ => adds_addDependencies obj).congr (fun x => ?_) fun e => ?_
  · cases x <;> simp [Declared]
  · simp [relates_iff]

/-! ## The graph of a scene -/

variable {s : SceneSnapshot}

theorem get?_of_mem_nodes {n : GraphNode} (h : n ∈ (build s).nodes) :
    (buildSteps s {}).nodes.get? n.identifier = some n := by
  obtain ⟨k, hk⟩ := Dict.mem_values.mp h
  rwa [(buildSteps s {}).nodes_keyed k n hk]

theorem nodup_identifiers (s : SceneSnapshot) : ((build s).nodes.map (·.identifier)).Nodup := by
  have hkeys : (build s).nodes.map (·.identifier) = (buildSteps s {}).nodes.keys := by
    change (List.map Prod.snd _).map _ = _
    rw [List.map_map]
    refine List.map_congr_left fun entry hentry => ?_
    exact (buildSteps s {}).nodes_keyed _ _ (Dict.mem_entries.mp hentry)
  rw [hkeys]
  exact (buildSteps s {}).nodes.nodup

theorem declared_of_mem_nodes {n : GraphNode} (h : n ∈ (build s).nodes) :
    ∃ e, Declared s e ∧ e.identifier = n.identifier ∧ e.kind = n.kind :=
  ((adds_buildSteps s).node _ _ _ (get?_of_mem_nodes h)).resolve_left (by simp)

theorem exists_node {e : Element} (h : Declared s e) :
    ∃ n ∈ (build s).nodes, n.identifier = e.identifier := by
  obtain ⟨n, hn⟩ := Option.isSome_iff_exists.mp
    (((adds_buildSteps s).identifier {} e.identifier).mpr (.inr ⟨e, h, rfl⟩))
  exact ⟨n, Dict.mem_values.mpr ⟨_, hn⟩, (buildSteps s {}).nodes_keyed _ _ hn⟩

/-- **The edges of the graph are the relations of the scene.** -/
theorem mem_edges {e : GraphEdge} : e ∈ (build s).edges ↔ Relates s e := by
  have hedge := (adds_buildSteps s).edge {} e
  have hkey : e ∈ (build s).edges ↔ (buildSteps s {}).edges.get? (edgeKey e) = some e := by
    refine Dict.mem_values.trans ⟨fun ⟨k, hk⟩ => ?_, fun h => ⟨_, h⟩⟩
    rwa [(buildSteps s {}).edges_keyed k e hk]
  rw [hkey, hedge]
  simp

theorem Relates.source {e : GraphEdge} (h : Relates s e) :
    ∃ x, Declared s x ∧ x.identifier = e.source ∧ x.kind = sourceKind e.relationship := by
  have hobject : ∀ {obj : SceneObject}, obj ∈ s.objects → Declared s (.object obj.id) :=
    fun hobj => ⟨_, hobj, rfl⟩
  cases h with
  | texture hobj hm hname => exact ⟨.material _, ⟨_, hobj, _, hm, rfl⟩, rfl, rfl⟩
  | image hobj hm hname => exact ⟨.texture _, ⟨_, hobj, _, hm, hname⟩, rfl, rfl⟩
  | _ hobj => exact ⟨.object _, hobject hobj, rfl, rfl⟩

/-! ## What is lost -/

/-- The graph has a node of the right kind for everything, no identifier twice, and the relations of
the scene as its edges, each from a node of the kind that it requires. -/
structure LosesNothing (s : SceneSnapshot) : Prop where
  node : ∀ x, Declared s x →
    ∃ n ∈ (build s).nodes, n.identifier = x.identifier ∧ n.kind = x.kind
  unique : ((build s).nodes.map (·.identifier)).Nodup
  edge : ∀ e, e ∈ (build s).edges ↔ Relates s e
  source : ∀ e ∈ (build s).edges,
    ∃ n ∈ (build s).nodes, n.identifier = e.source ∧ n.kind = sourceKind e.relationship

/-- No node stands for two things. -/
def OwnNodes (s : SceneSnapshot) : Prop :=
  ∀ n ∈ (build s).nodes, ∀ x y, Declared s x → Declared s y →
    x.identifier = n.identifier → y.identifier = n.identifier → x = y

/-- No object has the name of a collection, and no object or collection has the name that some
other thing gets with its prefix. -/
structure NoClash (s : SceneSnapshot) : Prop where
  names : ∀ obj ∈ s.objects, ∀ c ∈ s.collections, obj.id ≠ c.id
  prefixes : ∀ x, Declared s x → ¬x.Bare →
    (∀ obj ∈ s.objects, obj.id ≠ x.identifier) ∧ ∀ c ∈ s.collections, c.id ≠ x.identifier

/-- The names of an object and its modifier can be told from the text of both. -/
def ModifiersApart (s : SceneSnapshot) : Prop :=
  ∀ obj ∈ s.objects, ∀ m ∈ obj.modifiers, ∀ obj' ∈ s.objects, ∀ m' ∈ obj'.modifiers,
    obj.id ++ ":" ++ m.name = obj'.id ++ ":" ++ m'.name → obj.id = obj'.id ∧ m.name = m'.name

/-- An identifier with a prefix names its kind. -/
theorem Element.takeWhile_identifier {x : Element} (h : ¬x.Bare) :
    x.identifier.toList.takeWhile (· ≠ ':') = x.kind.toList := by
  cases x <;> simp_all [Bare, identifier, kind]

theorem NoClash.kind_eq (h : NoClash s) {x y : Element} (hx : Declared s x) (hy : Declared s y)
    (heq : x.identifier = y.identifier) : x.kind = y.kind := by
  have hbare : ∀ {x y : Element}, Declared s x → Declared s y → x.identifier = y.identifier →
      x.Bare → ¬y.Bare → False := by
    intro x y hx hy heq hxb hyb
    cases x with
    | collection id =>
      obtain ⟨c, hc, rfl⟩ := hx
      exact (h.prefixes y hy hyb).2 c hc heq
    | object id =>
      obtain ⟨obj, hobj, rfl⟩ := hx
      exact (h.prefixes y hy hyb).1 obj hobj heq
    | _ => exact hxb
  have hnames : ∀ {a b : String}, Declared s (.object a) → Declared s (.collection b) → a ≠ b := by
    rintro a b ⟨obj, hobj, rfl⟩ ⟨c, hc, rfl⟩
    exact h.names obj hobj c hc
  by_cases hxb : x.Bare
  · have hyb : y.Bare := by_contra fun hyb => hbare hx hy heq hxb hyb
    cases x <;> cases y <;> first | rfl | exact hxb.elim | exact hyb.elim | skip
    · exact (hnames hy hx heq.symm).elim
    · exact (hnames hx hy heq).elim
  · have hyb : ¬y.Bare := fun hyb => hbare hy hx heq.symm hyb hxb
    rw [← String.toList_inj, ← Element.takeWhile_identifier hxb, heq,
      Element.takeWhile_identifier hyb]

theorem LosesNothing.kind_eq (h : LosesNothing s) {x y : Element} (hx : Declared s x)
    (hy : Declared s y) (heq : x.identifier = y.identifier) : x.kind = y.kind := by
  obtain ⟨n, hn, hni, hnk⟩ := h.node x hx
  obtain ⟨m, hm, hmi, hmk⟩ := h.node y hy
  have hsame : n = m := by
    have := List.inj_on_of_nodup_map h.unique hn hm
    exact this (hni.trans (heq.trans hmi.symm))
  rw [← hnk, hsame, hmk]

theorem noClash_of_kind_eq
    (h : ∀ {x y}, Declared s x → Declared s y → x.identifier = y.identifier → x.kind = y.kind) :
    NoClash s where
  names obj hobj c hc heq := by
    have hkind := h (x := .object obj.id) (y := .collection c.id) ⟨obj, hobj, rfl⟩ ⟨c, hc, rfl⟩ heq
    simp [Element.kind] at hkind
  prefixes x hx hbare := by
    refine ⟨fun obj hobj heq => ?_, fun c hc heq => ?_⟩
    · have hkind := h (x := .object obj.id) ⟨obj, hobj, rfl⟩ hx heq
      cases x <;> simp_all [Element.kind, Element.Bare]
    · have hkind := h (x := .collection c.id) ⟨c, hc, rfl⟩ hx heq
      cases x <;> simp_all [Element.kind, Element.Bare]

theorem losesNothing_of_kind_eq
    (h : ∀ {x y}, Declared s x → Declared s y → x.identifier = y.identifier → x.kind = y.kind) :
    LosesNothing s := by
  have hnode : ∀ x, Declared s x →
      ∃ n ∈ (build s).nodes, n.identifier = x.identifier ∧ n.kind = x.kind := by
    intro x hx
    obtain ⟨n, hn, hni⟩ := exists_node hx
    obtain ⟨y, hy, hyi, hyk⟩ := declared_of_mem_nodes hn
    exact ⟨n, hn, hni, hyk.symm.trans (h hy hx (hyi.trans hni))⟩
  refine ⟨hnode, nodup_identifiers s, fun e => mem_edges, fun e he => ?_⟩
  obtain ⟨x, hx, hxi, hxk⟩ := (mem_edges.mp he).source
  rw [← hxi, ← hxk]
  exact hnode x hx

theorem ModifiersApart.eq_of_identifier (h : ModifiersApart s) {x y : Element}
    (hx : Declared s x) (hy : Declared s y) (hkind : x.kind = y.kind)
    (heq : x.identifier = y.identifier) : x = y := by
  cases x <;> cases y <;> simp only [Element.kind, String.reduceEq] at hkind
  case modifier.modifier o n o' n' =>
    obtain ⟨obj, hobj, m, hm, rfl, rfl⟩ := hx
    obtain ⟨obj', hobj', m', hm', rfl, rfl⟩ := hy
    obtain ⟨ho, hn⟩ := h obj hobj m hm obj' hobj' m' hm' ((String.append_right_inj _).mp heq)
    rw [ho, hn]
  all_goals simpa [Element.identifier] using heq

/-- **The dependency graph has everything exactly if no name clashes with another**: a node of the
right kind for each thing, unless an object is called like a collection or one of them like the
prefixed name of something else; and a node of its own for each thing, unless moreover two modifiers
make the same text with the names of their objects. -/
theorem losesNothing_iff (s : SceneSnapshot) :
    (LosesNothing s ↔ NoClash s) ∧
      (LosesNothing s ∧ OwnNodes s ↔ NoClash s ∧ ModifiersApart s) := by
  have hloses : LosesNothing s ↔ NoClash s :=
    ⟨fun h => noClash_of_kind_eq h.kind_eq, fun h => losesNothing_of_kind_eq h.kind_eq⟩
  refine ⟨hloses, ?_⟩
  rw [hloses]
  refine and_congr_right fun hclash => ⟨fun hown => ?_, fun hapart => ?_⟩
  · intro obj hobj m hm obj' hobj' m' hm' heq
    have hdecl : Declared s (.modifier obj.id m.name) := ⟨obj, hobj, m, hm, rfl, rfl⟩
    have hdecl' : Declared s (.modifier obj'.id m'.name) := ⟨obj', hobj', m', hm', rfl, rfl⟩
    obtain ⟨n, hn, hni⟩ := exists_node hdecl
    have hi : (Element.modifier obj'.id m'.name).identifier = n.identifier := by
      rw [hni, Element.identifier, Element.identifier, heq]
    have h := hown n hn _ _ hdecl hdecl' hni.symm hi
    exact Element.modifier.inj h
  · intro n _ x y hx hy hxi hyi
    have heq := hxi.trans hyi.symm
    exact hapart.eq_of_identifier hx hy (hclash.kind_eq hx hy heq) heq

/-- A collection and an object of one name. -/
def lampScene : SceneSnapshot where
  collections := [⟨"Lamp", "Lamp"⟩]
  objects := [{ name := "Lamp", id := "Lamp", collection := some "Lamp" }]

/-- The object has no node of its kind. -/
theorem lamp_lost : ¬LosesNothing lampScene := by
  intro h
  have hclash := noClash_of_kind_eq h.kind_eq
  exact hclash.names _ (List.mem_singleton_self _) _ (List.mem_singleton_self _) rfl

end Aidars.Intelligence
