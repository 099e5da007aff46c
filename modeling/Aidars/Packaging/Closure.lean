import Aidars.Foundations.Worklist
import Aidars.Packaging.Resolver

/-!
# The closure of a package

A package has what can be reached from the requirements of a render along the edges of the
dependency graph. `RequirementResolver.resolve` names the requirements, with and without the
prefixes of the graph; `computeClosure` looks for them among the identifiers and the labels of the
nodes and searches from there.

`mem_computeClosure` says that it finds exactly what can be reached, in any graph.
-/

namespace Aidars.Packaging

open Worklist

/-- An edge of the dependency graph. -/
structure GraphEdge where
  source : String
  target : String
  relationship : String
  deriving DecidableEq

/-- The dependency graph of a scene. -/
structure DependencyGraph where
  nodes : List GraphNode
  edges : List GraphEdge

/-! ## The requirements -/

/-- What packaging reads of a report on what a render requires. -/
structure RenderRequirementReport where
  requiredObjects : List String := []
  requiredMeshes : List String := []
  requiredMaterials : List String := []
  requiredTextures : List String := []
  requiredImages : List String := []
  requiredLights : List String := []
  requiredCameras : List String := []
  requiredLibraries : List String := []
  requiredSimulationCaches : List String := []

/-- A name with and without a prefix. -/
def addPrefixed (pre : String) (ids : PySet String) (name : String) : PySet String :=
  (ids.insert (pre ++ name)).insert name

/-- The identifiers and names of what a render requires. -/
def RequirementResolver.resolve (report : RenderRequirementReport) : PySet String :=
  let ids := report.requiredObjects.foldl PySet.insert ∅
  let ids := report.requiredLights.foldl PySet.insert ids
  let ids := report.requiredCameras.foldl PySet.insert ids
  let ids := report.requiredMaterials.foldl (addPrefixed "material:") ids
  let ids := report.requiredTextures.foldl (addPrefixed "texture:") ids
  let ids := report.requiredImages.foldl (addPrefixed "image:") ids
  let ids := report.requiredMeshes.foldl PySet.insert ids
  let ids := report.requiredLibraries.foldl (addPrefixed "asset:") ids
  report.requiredSimulationCaches.foldl PySet.insert ids

/-! ## The search -/

namespace DependencyGraph

variable (graph : DependencyGraph)

/-- The targets of the edges from an identifier. -/
def adjacency (current : String) : List String :=
  (graph.edges.filter (·.source = current)).map (·.target)

/-- The identifiers of the nodes with a label. -/
def labelToIds (label : String) : List String :=
  (graph.nodes.filter (·.label = label)).map (·.identifier)

/-- The identifiers to which the edges lead, with the edges as they are. -/
def edgeGraph : Worklist.Graph String where
  adj := graph.adjacency
  targets := graph.edges.map GraphEdge.target
  adj_subset _ := (List.filter_sublist.map _).subset

/-- The nodes that a seed stands for: the one of this identifier and those with this label. -/
def expandSeed (expanded : PySet String) (seed : String) : PySet String :=
  let expanded :=
    if ((nodeIndex graph.nodes).get? seed).isSome then expanded.insert seed else expanded
  (graph.labelToIds seed).foldl PySet.insert expanded

end DependencyGraph

/-- All that can be reached from the seeds. -/
def computeClosure (seedIds : PySet String) (graph : DependencyGraph) : PySet String :=
  let expandedSeeds := seedIds.toList.foldl graph.expandSeed ∅
  search graph.edgeGraph (fun _ => False) expandedSeeds.toList ∅

/-! ## What the closure holds -/

namespace DependencyGraph

variable {graph : DependencyGraph}

/-- Some edge leads from the one identifier to the other. -/
def Step (graph : DependencyGraph) (a b : String) : Prop :=
  ∃ edge ∈ graph.edges, edge.source = a ∧ edge.target = b

/-- A node that some seed names by its identifier or its label. -/
def Named (graph : DependencyGraph) (seedIds : PySet String) (node : GraphNode) : Prop :=
  node ∈ graph.nodes ∧ (node.identifier ∈ seedIds ∨ node.label ∈ seedIds)

theorem isSome_nodeIndex {nodes : List GraphNode} {k : String} :
    ((nodeIndex nodes).get? k).isSome ↔ ∃ node ∈ nodes, node.identifier = k := by
  have hloop : ∀ (l : List GraphNode) (d : Dict String GraphNode),
      ((l.foldl (fun index node => index.set node.identifier node) d).get? k).isSome ↔
        (∃ node ∈ l, node.identifier = k) ∨ (d.get? k).isSome := by
    intro l
    induction l with
    | nil => simp
    | cons node l ih =>
      intro d
      rw [List.foldl_cons, ih, List.exists_mem_cons_iff, Dict.get?_set]
      split_ifs with hk
      · simp [hk]
      · simp [Ne.symm hk]
  rw [nodeIndex, hloop]
  exact or_iff_left (by simp)

theorem mem_expandSeed {expanded : PySet String} {seed x : String} :
    x ∈ graph.expandSeed expanded seed ↔
      (∃ node ∈ graph.nodes, node.identifier = x ∧ (x = seed ∨ node.label = seed)) ∨
        x ∈ expanded := by
  have hlabels : ∀ (s : PySet String) (b y : String), y ∈ s.insert b ↔ y = b ∨ y ∈ s :=
    fun _ _ _ => PySet.mem_insert
  rw [expandSeed, PySet.mem_foldl hlabels]
  simp only [labelToIds, List.mem_map, List.mem_filter, decide_eq_true_eq, exists_eq_right']
  split_ifs with hnode
  · obtain ⟨node, hnode, rfl⟩ := isSome_nodeIndex.mp hnode
    rw [PySet.mem_insert]
    grind
  · have hnone : ∀ node ∈ graph.nodes, node.identifier ≠ seed := fun node hnode' heq =>
      hnode (isSome_nodeIndex.mpr ⟨node, hnode', heq⟩)
    grind

theorem mem_expandSeeds {seedIds : PySet String} {x : String} :
    x ∈ seedIds.toList.foldl graph.expandSeed ∅ ↔
      ∃ node, graph.Named seedIds node ∧ node.identifier = x := by
  have hseed : ∀ (s : PySet String) (seed y : String), y ∈ graph.expandSeed s seed ↔
      (∃ node ∈ graph.nodes, node.identifier = y ∧ (y = seed ∨ node.label = seed)) ∨ y ∈ s :=
    fun _ _ _ => mem_expandSeed
  rw [PySet.mem_foldl hseed]
  simp only [PySet.mem_toList, PySet.notMem_empty, or_false, Named]
  grind

theorem leads_iff {a b : String} :
    Leads graph.edgeGraph (fun _ => False) a b ↔ graph.Step a b := by
  simp only [Leads, edgeGraph, adjacency, List.mem_map, List.mem_filter, decide_eq_true_eq,
    not_false_eq_true, and_true, Step, and_assoc]

/-- **The closure is what can be reached** from the nodes that the seeds name. -/
theorem mem_computeClosure {seedIds : PySet String} {x : String} :
    x ∈ computeClosure seedIds graph ↔
      ∃ node, graph.Named seedIds node ∧ Relation.ReflTransGen graph.Step node.identifier x := by
  have hleads : Leads graph.edgeGraph (fun _ => False) = graph.Step := by
    funext a b
    exact propext leads_iff
  rw [computeClosure, mem_search, hleads]
  simp only [PySet.mem_toList, mem_expandSeeds, not_false_eq_true, true_and]
  constructor
  · rintro ⟨-, ⟨node, hnode, rfl⟩, hpath⟩
    exact ⟨node, hnode, hpath⟩
  · rintro ⟨node, hnode, hpath⟩
    exact ⟨_, ⟨node, hnode, rfl⟩, hpath⟩

theorem computeClosure_mono {graph' : DependencyGraph} {seedIds seedIds' : PySet String}
    (hseeds : ∀ s ∈ seedIds, s ∈ seedIds') (hnodes : graph.nodes ⊆ graph'.nodes)
    (hedges : graph.edges ⊆ graph'.edges) {x : String} (h : x ∈ computeClosure seedIds graph) :
    x ∈ computeClosure seedIds' graph' := by
  obtain ⟨node, ⟨hnode, hseed⟩, hpath⟩ := mem_computeClosure.mp h
  have hnamed : graph'.Named seedIds' node := ⟨hnodes hnode, hseed.imp (hseeds _) (hseeds _)⟩
  refine mem_computeClosure.mpr ⟨node, hnamed, ?_⟩
  refine Relation.ReflTransGen.mono (fun a b hstep => ?_) _ _ hpath
  obtain ⟨edge, hedge, hends⟩ := hstep
  exact ⟨edge, hedges hedge, hends⟩

/-- No label is an identifier or the target of an edge, unless it is the identifier of its own
node. -/
def LabelsOwn (graph : DependencyGraph) : Prop :=
  ∀ node ∈ graph.nodes, ((∃ other ∈ graph.nodes, other.identifier = node.label) ∨
    ∃ edge ∈ graph.edges, edge.target = node.label) → node.label = node.identifier

/-- What is in the closure is an identifier or the target of an edge. -/
theorem exists_of_mem_computeClosure {seedIds : PySet String} {x : String}
    (h : x ∈ computeClosure seedIds graph) :
    (∃ node ∈ graph.nodes, node.identifier = x) ∨ ∃ edge ∈ graph.edges, edge.target = x := by
  obtain ⟨node, ⟨hnode, -⟩, hpath⟩ := mem_computeClosure.mp h
  cases hpath with
  | refl => exact .inl ⟨node, hnode, rfl⟩
  | tail _ hstep =>
    obtain ⟨edge, hedge, -, htarget⟩ := hstep
    exact .inr ⟨edge, hedge, htarget⟩

theorem computeClosure_idem (hlabels : graph.LabelsOwn) {seedIds : PySet String} {x : String} :
    x ∈ computeClosure (computeClosure seedIds graph) graph ↔ x ∈ computeClosure seedIds graph := by
  constructor
  · intro h
    obtain ⟨node, ⟨hnode, hseed⟩, hpath⟩ := mem_computeClosure.mp h
    have hmem : node.identifier ∈ computeClosure seedIds graph := by
      rcases hseed with hid | hlabel
      · exact hid
      · rwa [hlabels node hnode (exists_of_mem_computeClosure hlabel)] at hlabel
    obtain ⟨start, hstart, hpath'⟩ := mem_computeClosure.mp hmem
    exact mem_computeClosure.mpr ⟨start, hstart, hpath'.trans hpath⟩
  · intro h
    obtain ⟨node, hnamed, hpath⟩ := mem_computeClosure.mp h
    have hmem : node.identifier ∈ computeClosure seedIds graph :=
      mem_computeClosure.mpr ⟨node, hnamed, .refl⟩
    exact mem_computeClosure.mpr ⟨node, ⟨hnamed.1, .inl hmem⟩, hpath⟩

/-- **The closure of a package is reachability.** It is monotone in the seeds and in the edges, and
taking it again changes nothing unless a label is the name of something else. -/
theorem closure_is_reachability (graph : DependencyGraph) (seedIds : PySet String) :
    (∀ x, x ∈ computeClosure seedIds graph ↔ ∃ node ∈ graph.nodes,
      (node.identifier ∈ seedIds ∨ node.label ∈ seedIds) ∧
        Relation.ReflTransGen graph.Step node.identifier x) ∧
    (∀ (seedIds' : PySet String) (edges' : List GraphEdge), (∀ s ∈ seedIds, s ∈ seedIds') →
      graph.edges ⊆ edges' → ∀ x ∈ computeClosure seedIds graph,
        x ∈ computeClosure seedIds' { graph with edges := edges' }) ∧
    (graph.LabelsOwn → ∀ x, x ∈ computeClosure (computeClosure seedIds graph) graph ↔
      x ∈ computeClosure seedIds graph) := by
  refine ⟨fun x => ?_, fun seedIds' edges' hseeds hedges x => ?_, fun hlabels x => ?_⟩
  · rw [mem_computeClosure]
    simp only [Named, and_assoc]
  · have hnodes : graph.nodes ⊆ graph.nodes := List.Subset.refl _
    exact @computeClosure_mono graph { graph with edges := edges' } _ _ hseeds hnodes hedges x
  · exact computeClosure_idem hlabels

/-- A table whose material and texture lead back to each other, and to an image without a node. -/
def tableGraph : DependencyGraph where
  nodes := [⟨"Table", "Table", "object"⟩, ⟨"material:Wood", "Wood", "material"⟩,
    ⟨"texture:wood.png", "wood.png", "texture"⟩]
  edges := [⟨"Table", "material:Wood", "material"⟩,
    ⟨"material:Wood", "texture:wood.png", "texture"⟩,
    ⟨"texture:wood.png", "material:Wood", "user"⟩, ⟨"texture:wood.png", "image:wood.png", "image"⟩]

theorem closure_is_reachability_tableGraph :
    "image:wood.png" ∈ computeClosure (.ofList ["Table", "Wood"])
        { tableGraph with edges := tableGraph.edges ++ [⟨"Table", "Room", "collection"⟩] } ∧
      ("image:wood.png" ∈ computeClosure (computeClosure (.ofList ["Wood"]) tableGraph) tableGraph ↔
        "image:wood.png" ∈ computeClosure (.ofList ["Wood"]) tableGraph) := by
  obtain ⟨hreach, hmono, hidem⟩ := closure_is_reachability tableGraph (.ofList ["Wood"])
  have himage : "image:wood.png" ∈ computeClosure (.ofList ["Wood"]) tableGraph := by
    refine (hreach _).mpr ⟨⟨"material:Wood", "Wood", "material"⟩, by simp [tableGraph], by simp, ?_⟩
    refine .head ⟨_, List.mem_of_getElem? (i := 1) rfl, rfl, rfl⟩ (.single ?_)
    exact ⟨_, List.mem_of_getElem? (i := 3) rfl, rfl, rfl⟩
  have hlabels : tableGraph.LabelsOwn := by
    intro node hnode
    simp only [tableGraph, List.mem_cons, List.not_mem_nil, or_false] at hnode
    rcases hnode with rfl | rfl | rfl <;> simp [tableGraph]
  exact ⟨hmono _ _ (by simp) (List.subset_append_left ..) _ himage, hidem hlabels _⟩

end DependencyGraph

end Aidars.Packaging
