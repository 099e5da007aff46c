import Aidars.Foundations.Collections
import Aidars.Foundations.FileTree
import Aidars.Foundations.Paths
import Aidars.Foundations.Sorting
import Aidars.Models.Validation

/-!
# Resolving assets

The physical resolver turns the identifiers of a dependency closure into asset records. An external
asset is looked for on disk; a file that is found is hashed and gets a path in the package, from the
first digits of its hash and its name.

`resolve_spec` says what a record of a resolved asset holds.
-/

namespace Aidars

namespace Packaging

/-! ## Records -/

/-- How an asset was found. -/
inductive AssetStatus
  | resolved
  | embedded
  | missing
  | generated
  deriving DecidableEq

/-- What packaging reads and writes of an asset. -/
structure AssetRecord where
  assetId : String
  sourcePath : Option String := none
  relativePath : Option String := none
  packagePath : Option String := none
  status : AssetStatus := .embedded
  sha256 : Option String := none
  sizeBytes : ℕ := 0
  isEmbedded : Bool := true
  deriving DecidableEq

/-- A node of the dependency graph. -/
structure GraphNode where
  identifier : String
  label : String
  kind : String

/-- The nodes of a graph by their identifiers. -/
def nodeIndex (nodes : List GraphNode) : Dict String GraphNode :=
  nodes.foldl (fun index node => index.set node.identifier node) ∅

/-! ## Paths -/

/-- The text with `/` for every backslash. -/
def normalizeSlashes (s : String) : String :=
  String.ofList (s.toList.map fun c => if c = '\\' then '/' else c)

/-- What follows a prefix of a text. -/
def afterPrefix (pre s : String) : Option String :=
  if pre.toList <+: s.toList then some (String.ofList (s.toList.drop pre.toList.length)) else none

/-- The endings by which an identifier without a node is taken for a file. -/
def fileEndings : List String :=
  [".blend", ".png", ".jpg", ".jpeg", ".hdr", ".exr", ".vdb", ".abc"]

/-- The path of an external asset, as it is written in the scene. -/
def rawPath (node : Option GraphNode) (nodeId : String) : Option String :=
  match node with
  | some node =>
    if lower node.kind.toList ∈ ["texture".toList, "image".toList, "asset".toList] then
      some node.label
    else none
  | none =>
    if (afterPrefix "material:" nodeId).isSome then none
    else match afterPrefix "texture:" nodeId, afterPrefix "image:" nodeId,
        afterPrefix "asset:" nodeId with
      | some raw, _, _ | none, some raw, _ | none, none, some raw => some raw
      | none, none, none =>
        if fileEndings.any fun e => e.toList <:+ lower nodeId.toList then some nodeId else none

/-- The directories that a resolver searches. -/
structure PhysicalAssetResolver where
  searchPaths : List Path := []

variable (t : FileTree PathName Bytes)

/-- Where a relative path leads: in the base directory, or else the first search path that has it.
-/
def PhysicalAssetResolver.locate (self : PhysicalAssetResolver) (base : Path) (rel : String) :
    Path :=
  let candidate := resolvePath base rel
  if t.exists? candidate then candidate
  else ((self.searchPaths.map fun sp => resolvePath sp rel).find? fun alt => t.exists? alt).getD
    candidate

/-- Resolve a raw path to a path on disk and a relative path; a path that leaves the directories of
the project is an error. -/
def PhysicalAssetResolver.resolvePath (self : PhysicalAssetResolver) (raw : String) (base : Path) :
    Except String (Path × String) :=
  let normalized := normalizeSlashes raw
  let (candidate, cleanRel) := match afterPrefix "//" normalized with
    | some rest =>
      let cleanRel := String.ofList (rest.toList.dropWhile (· = '/'))
      (self.locate t base cleanRel, cleanRel)
    | none =>
      if isAbsolute normalized then (Aidars.resolvePath [] normalized, pathName normalized)
      else (self.locate t base normalized, normalized)
  if (base :: self.searchPaths).any fun root => root <+: candidate then .ok (candidate, cleanRel)
  else .error ("Security violation: path " ++ pathStr candidate ++
    " escapes allowed project boundaries.")

/-! ## Resolution -/

variable (sha256 : Bytes → String)

/-- The name of a path. -/
def fileName (p : Path) : String := (p.getLast?.map (·.text)).getD ""

/-- The path of a file in a package. -/
def packagePathOf (fileHash : String) (p : Path) : String :=
  "assets/" ++ (String.ofList (fileHash.toList.take 8) ++ "_" ++ fileName p)

/-- The record of an asset that was found. -/
def resolvedRecord (nodeId : String) (file : Path) (cleanRel : String) (data : Bytes) :
    AssetRecord where
  assetId := nodeId
  sourcePath := some (pathStr file)
  relativePath := some cleanRel
  packagePath := some (packagePathOf (sha256 data) file)
  status := .resolved
  sha256 := some (sha256 data)
  sizeBytes := data.length
  isEmbedded := false

/-- The record of one identifier. -/
def PhysicalAssetResolver.resolveOne (self : PhysicalAssetResolver) (index : Dict String GraphNode)
    (base : Path) (nodeId : String) : Except String AssetRecord :=
  match rawPath (index.get? nodeId) nodeId with
  | none => .ok { assetId := nodeId }
  | some raw =>
    match self.resolvePath t raw base with
    | .error e => .error e
    | .ok (file, cleanRel) =>
      match t.data? file with
      | some data => .ok (resolvedRecord sha256 nodeId file cleanRel data)
      | none => .ok
        { assetId := nodeId
          sourcePath := some (pathStr file)
          relativePath := some cleanRel
          status := .missing
          isEmbedded := false }

/-- Resolve the identifiers of a closure, in the order of their texts. -/
def PhysicalAssetResolver.resolve (self : PhysicalAssetResolver) (closureIds : PySet String)
    (nodes : List GraphNode) (base : Path) : Except String (List AssetRecord) :=
  (sortBy (fun id => [.str id]) closureIds.toList).mapM
    (self.resolveOne t sha256 (nodeIndex nodes) base)

/-! ## Records that were found -/

/-- The record is that of a file on disk. -/
def Found (r : AssetRecord) : Prop :=
  ∃ file cleanRel data, t.data? file = some data ∧ '\\' ∉ cleanRel.toList ∧
    r = resolvedRecord sha256 r.assetId file cleanRel data

variable {t sha256} {self : PhysicalAssetResolver} {r : AssetRecord} {base : Path}

theorem notMem_normalizeSlashes (s : String) : '\\' ∉ (normalizeSlashes s).toList := by
  rw [normalizeSlashes, String.toList_ofList, List.mem_map]
  rintro ⟨c, -, hc⟩
  split_ifs at hc with h
  · cases hc
  · exact h hc

theorem normalizeSlashes_of_notMem {s : String} (h : '\\' ∉ s.toList) : normalizeSlashes s = s := by
  have hmap : (s.toList.map fun c => if c = '\\' then '/' else c) = s.toList := by
    conv_rhs => rw [← List.map_id s.toList]
    refine List.map_congr_left fun c hc => ?_
    have hne : c ≠ '\\' := fun heq => h (heq ▸ hc)
    rw [if_neg hne, id]
  rw [normalizeSlashes, hmap, String.ofList_toList]

theorem notMem_afterPrefix {pre s rest : String} (h : afterPrefix pre s = some rest)
    {c : Char} (hc : c ∉ s.toList) : c ∉ rest.toList := by
  unfold afterPrefix at h
  split_ifs at h
  obtain rfl := Option.some.inj h
  rw [String.toList_ofList]
  exact fun hmem => hc (List.mem_of_mem_drop hmem)

/-- A relative path has no backslash. -/
theorem notMem_resolvePath {raw cleanRel : String} {file : Path}
    (h : self.resolvePath t raw base = .ok (file, cleanRel)) : '\\' ∉ cleanRel.toList := by
  have hraw := notMem_normalizeSlashes raw
  have hrest (rest : String) (hrest : afterPrefix "//" (normalizeSlashes raw) = some rest) :
      '\\' ∉ (String.ofList (rest.toList.dropWhile (· = '/'))).toList := by
    rw [String.toList_ofList]
    exact fun hmem => notMem_afterPrefix hrest hraw (List.dropWhile_sublist _ |>.subset hmem)
  unfold PhysicalAssetResolver.resolvePath at h
  cases hpre : afterPrefix "//" (normalizeSlashes raw) with
  | some rest =>
    simp only [hpre] at h
    split_ifs at h
    obtain ⟨-, rfl⟩ := Prod.mk.inj (Except.ok.inj h)
    exact hrest rest hpre
  | none =>
    simp only [hpre] at h
    split_ifs at h
    · obtain ⟨-, rfl⟩ := Prod.mk.inj (Except.ok.inj h)
      exact notMem_pathName hraw
    · obtain ⟨-, rfl⟩ := Prod.mk.inj (Except.ok.inj h)
      exact hraw

theorem resolveOne_assetId {index : Dict String GraphNode} {nodeId : String}
    (h : self.resolveOne t sha256 index base nodeId = .ok r) : r.assetId = nodeId := by
  unfold PhysicalAssetResolver.resolveOne at h
  repeat' split at h
  all_goals cases h
  all_goals rfl

theorem found_of_resolveOne {index : Dict String GraphNode} {nodeId : String}
    (h : self.resolveOne t sha256 index base nodeId = .ok r) (hr : r.status = .resolved) :
    Found t sha256 r := by
  unfold PhysicalAssetResolver.resolveOne at h
  split at h
  · cases h
    cases hr
  · rename_i raw hraw
    split at h
    · cases h
    · rename_i file cleanRel hfile
      split at h
      · rename_i data hdata
        obtain rfl := Except.ok.inj h
        exact ⟨file, cleanRel, data, hdata, notMem_resolvePath hfile, rfl⟩
      · cases h
        cases hr

theorem exists_of_forall₂ {α β : Type} {R : α → β → Prop} {l : List α} {l' : List β}
    (h : List.Forall₂ R l l') {b : β} (hb : b ∈ l') : ∃ a, R a b := by
  induction h with
  | nil => cases hb
  | cons hab _ ih =>
    obtain rfl | hb := List.mem_cons.1 hb
    · exact ⟨_, hab⟩
    · exact ih hb

/-- The records of a resolver: they are sorted by their identifiers, which differ, and those of
resolved assets are the records of files on disk. -/
structure Records (t : FileTree PathName Bytes) (sha256 : Bytes → String)
    (records : List AssetRecord) : Prop where
  sorted : records.Pairwise (keyLe fun r => [.str r.assetId])
  nodup : (records.map (·.assetId)).Nodup
  found : ∀ r ∈ records, r.status = .resolved → Found t sha256 r

theorem resolve_spec {closureIds : PySet String} {nodes : List GraphNode}
    {records : List AssetRecord} (h : self.resolve t sha256 closureIds nodes base = .ok records) :
    Records t sha256 records := by
  have hall := forall₂_of_mapM h
  have hids : records.map (·.assetId) = sortBy (fun id => [.str id]) closureIds.toList := by
    generalize sortBy (fun id => [KeyItem.str id]) closureIds.toList = ids at hall
    clear h
    induction hall with
    | nil => rfl
    | cons hone _ ih => rw [List.map_cons, ih, resolveOne_assetId hone]
  have hsorted : (records.map (·.assetId)).Pairwise (keyLe fun id => [.str id]) := by
    rw [hids]
    exact pairwise_sortBy fun id _ => by simp [Tuple.Comparable]
  rw [List.pairwise_map] at hsorted
  refine ⟨hsorted, ?_, fun r hr hres => ?_⟩
  · rw [hids]
    exact (List.perm_insertionSort _ _).nodup_iff.2 closureIds.nodup
  · obtain ⟨id, hone⟩ := exists_of_forall₂ hall hr
    exact found_of_resolveOne hone hres

end Packaging

end Aidars
