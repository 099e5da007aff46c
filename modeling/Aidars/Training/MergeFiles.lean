import Aidars.Foundations.Deposits
import Aidars.Training.NumpyMerger
import Aidars.Training.Outputs

/-!
# Merging the outputs of workers

The files of all workers are gone through by their names. Files of one name that are checkpoints are
averaged, and feature matrices are concatenated (`combine`). If that is not possible, or they are of
another type, they are copied, under their name if there is one and under new names, with the
workers', if there are more.

The loading and saving of files is that of PyTorch, NumPy, safetensors and `json` (`Formats`). A
merged file knows what the share of each worker is. `combine_workers` says whose files it is made
of, and `combine_shares` which shares they have.
-/

namespace Aidars.Training

open NestedDict WeightedMean

/-! ## Names of files -/

/-- The name before and from the last dot, if there is something on both sides of it. -/
def splitSuffix (name : List Char) : List Char × List Char :=
  let extension := (name.reverse.takeWhile (· ≠ '.')).reverse
  let i := name.length - extension.length - 1
  if extension.length < name.length ∧ 0 < i ∧ i < name.length - 1 then
    (name.take i, name.drop i)
  else (name, [])

theorem splitSuffix_append (name : List Char) :
    (splitSuffix name).1 ++ (splitSuffix name).2 = name := by
  simp only [splitSuffix]
  split_ifs
  · exact List.take_append_drop _ _
  · exact List.append_nil _

namespace RelName

/-- `path.stem` -/
def stem (n : RelName) : String := String.ofList (splitSuffix n.base.text.toList).1

/-- `path.suffix` -/
def suffix (n : RelName) : String := String.ofList (splitSuffix n.base.text.toList).2

/-- `path.suffix.lower()` -/
def ext (n : RelName) : String := String.ofList (lower n.suffix.toList)

/-- A character of the stem or of the suffix is one of the name. -/
theorem mem_base {n : RelName} {c : Char} (h : c ∈ n.stem.toList ∨ c ∈ n.suffix.toList) :
    c ∈ n.base.text.toList := by
  rw [stem, suffix, String.toList_ofList, String.toList_ofList] at h
  rw [← splitSuffix_append n.base.text.toList, List.mem_append]
  exact h

/-- `f"{stem}_{wid}{suff}"` -/
def distinctName (n : RelName) (wid : WorkerId) : PathName :=
  have hunderscore (s : String) (hs : '_' ∉ s.toList) :
      n.stem ++ "_" ++ wid.text ++ n.suffix ≠ s := by
    rintro rfl
    exact hs (by simp)
  { text := n.stem ++ "_" ++ wid.text ++ n.suffix
    ne_empty := hunderscore "" (by decide)
    ne_dot := hunderscore "." (by decide)
    ne_up := hunderscore ".." (by decide)
    no_slash := by
      simp only [String.toList_append, List.mem_append]
      rintro (((h | h) | h) | h)
      · exact n.base.no_slash (mem_base (Or.inl h))
      · revert h
        decide
      · exact wid.no_slash h
      · exact n.base.no_slash (mem_base (Or.inr h)) }

/-- Where a file is put that is one of several of its name. -/
def distinctPath (n : RelName) (wid : WorkerId) : Path := n.parent ++ [n.distinctName wid]

/-- Where `np.savez_compressed` and `np.save` write: at a name that ends in lower case. -/
@[irreducible] def savePath (n : RelName) : Path :=
  if n.ext = ".npz" ∧ ¬ ".npz".toList <:+ n.base.text.toList then
    n.parent ++ [n.base.append ".npz" ⟨'n', by decide, by decide⟩ (by decide)]
  else if n.ext = ".npy" ∧ ¬ ".npy".toList <:+ n.base.text.toList then
    n.parent ++ [n.base.append ".npy" ⟨'n', by decide, by decide⟩ (by decide)]
  else n.path

end RelName

/-- What is done with the files of a name. -/
inductive FileKind
  | pytorch
  | npz
  | safetensors
  | json
  | features
  | other
  deriving DecidableEq

/-- `"total_fea" in rel_name.lower() or "features" in rel_name.lower()` -/
def IsFeatures (n : RelName) : Prop :=
  "total_fea".toList <:+: lower (relStr n.path).toList ∨
    "features".toList <:+: lower (relStr n.path).toList

instance (n : RelName) : Decidable (IsFeatures n) := inferInstanceAs (Decidable (_ ∨ _))

/-- What is done with files, by their extension. -/
@[irreducible] def RelName.kind (n : RelName) : FileKind :=
  if n.ext = ".pt" ∨ n.ext = ".pth" then .pytorch
  else if n.ext = ".npz" then .npz
  else if n.ext = ".safetensors" then .safetensors
  else if n.ext = ".json" then .json
  else if n.ext = ".npy" ∧ IsFeatures n then .features
  else .other

/-! ## Merged files -/

/-- The libraries that load and save files, and what they make of values that are no numbers of the
merger. -/
structure Formats (τ υ σ α : Type) where
  /-- `torch.load` -/
  torchLoad : Bytes → Option (Value (TorchLeaf τ))
  /-- `torch.save` -/
  torchSave : Value (TorchLeaf τ) → Option Bytes
  /-- The total of some counters as an integer of a type. -/
  castTotal : String → ℚ → Option ℤ
  /-- `np.load`, of an archive -/
  npzLoad : Bytes → Option (NestedDict (NumpyLeaf υ))
  /-- `np.savez_compressed` -/
  npzSave : Value (NumpyLeaf υ) → Option Bytes
  /-- `safetensors.numpy.load_file` -/
  safetensorsLoad : Bytes → Option (NestedDict (NumpyLeaf υ))
  /-- `safetensors.numpy.save_file` -/
  safetensorsSave : Value (NumpyLeaf υ) → Option Bytes
  /-- Arrays that are neither of floating-point nor of complex numbers. -/
  asFloat64 : υ → Option (Tensor ℚ)
  /-- `json.load` -/
  jsonLoad : Bytes → Option (Value (JsonLeaf σ))
  /-- `json.dump` -/
  jsonDump : Value (JsonLeaf σ) → Option Bytes
  jsonReading : JsonReading σ
  /-- `np.load`, of an array -/
  npyLoad : Bytes → Option α
  /-- `np.concatenate(arrays, axis=0)` -/
  concatenate : List α → Option α
  /-- `np.save` -/
  npySave : α → Option Bytes

/-- A merged file: whose checkpoints it is the average of, with which shares, or whose arrays it is
made of. -/
inductive Merged
  | averaged (shares : List (WorkerId × ℚ)) (data : Bytes)
  | concatenated (workers : List WorkerId) (data : Bytes)

namespace Merged

/-- The workers whose files are in a merged file. -/
def workers : Merged → List WorkerId
  | averaged shares _ => shares.map Prod.fst
  | concatenated workers _ => workers

/-- The shares of the workers in an average. -/
def shares : Merged → List (WorkerId × ℚ)
  | averaged shares _ => shares
  | concatenated .. => []

def data : Merged → Bytes
  | averaged _ data | concatenated _ data => data

end Merged

section Values

variable {L : Type}

/-- The recursion the formats share, on what was loaded: values that need not be dictionaries. -/
def fedavgValues (rule : String → L → List (Found L × ℚ) → Option L) :
    List (Value L × ℚ) → Option (Value L)
  | [] => some (.dict .nil)
  | [c] => some c.1
  | (.leaf _, _) :: _ :: _ => none
  | (.dict ref, w) :: c :: cs => (mergeFrom rule ref ((.dict ref, w) :: c :: cs)).map .dict

/-- `[w / sum_w for w in loaded_weights]`, where `sum_w = sum(loaded_weights) or 1.0` -/
def activeWeights (loadedWeights : List ℚ) : List ℚ :=
  let sumW := if loadedWeights.sum = 0 then 1 else loadedWeights.sum
  loadedWeights.map (· / sumW)

/-- What `state` finds in the loaded files, matched by places with the active weights of all of
them. -/
def contributionsOf (state : Value L → Option (Value L)) (weightOf : WorkerId → ℚ)
    (loaded : List (WorkerId × Value L)) : List (((WorkerId × Value L) × Value L) × ℚ) :=
  (loaded.filterMap fun c => (state c.2).map (Prod.mk c)).zip
    (activeWeights (loaded.map fun c => weightOf c.1))

/-- The shares of the workers in the average. A file that holds no dictionary has none. -/
def sharesOf (contributions : List (((WorkerId × Value L) × Value L) × ℚ)) :
    List (WorkerId × ℚ) :=
  (contributions.filter fun c => c.1.1.2.isDict).map fun c => (c.1.1.1, c.2)

/-- Load the files of some workers, average what `state` finds in them and write the average. -/
def averageFiles (load : Bytes → Option (Value L)) (state : Value L → Option (Value L))
    (rule : String → L → List (Found L × ℚ) → Option L)
    (write : List (Value L) → Value L → Option Bytes) (weightOf : WorkerId → ℚ)
    (files : List (WorkerId × Bytes)) : Option Merged := do
  let loaded ← files.mapM fun f => (load f.2).map (Prod.mk f.1)
  let contributions := contributionsOf state weightOf loaded
  let merged ← fedavgValues rule (contributions.map fun c => (c.1.2, c.2))
  let data ← write (loaded.map Prod.snd) merged
  some (.averaged (sharesOf contributions) data)

theorem isDict_iff {v : Value L} : v.isDict ↔ ∃ d, v = .dict d := by
  cases v <;> simp [Value.isDict]

/-- The weights of active workers are those of the workers, up to a common factor. -/
theorem activeWeights_eq (loadedWeights : List ℚ) :
    ∃ c : ℚ, c ≠ 0 ∧ activeWeights loadedWeights = loadedWeights.map (c * ·) := by
  have hfactor : ∀ sumW : ℚ, (loadedWeights.map (· / sumW)) = loadedWeights.map (sumW⁻¹ * ·) :=
    fun sumW => List.map_congr_left fun w _ => div_eq_inv_mul w sumW
  simp only [activeWeights]
  split_ifs with hzero
  · exact ⟨1⁻¹, by norm_num, hfactor 1⟩
  · exact ⟨_, inv_ne_zero hzero, hfactor _⟩

variable {load : Bytes → Option (Value L)} {state : Value L → Option (Value L)}
  {rule : String → L → List (Found L × ℚ) → Option L}
  {write : List (Value L) → Value L → Option Bytes} {weightOf : WorkerId → ℚ}
  {files : List (WorkerId × Bytes)} {c : Merged}

theorem averageFiles_eq_some (h : averageFiles load state rule write weightOf files = some c) :
    ∃ loaded data, files.map (fun f => (load f.2).map (Prod.mk f.1)) = loaded.map some ∧
      c = .averaged (sharesOf (contributionsOf state weightOf loaded)) data := by
  simp only [averageFiles, Option.bind_eq_bind, Option.bind_eq_some_iff, Option.some.injEq] at h
  obtain ⟨loaded, hloaded, merged, -, data, -, rfl⟩ := h
  exact ⟨loaded, data, mapM_eq_some_iff.mp hloaded, rfl⟩

theorem loaded_of_average (h : averageFiles load state rule write weightOf files = some c)
    {f : WorkerId × Bytes} (hf : f ∈ files) : ∃ v, load f.2 = some v := by
  obtain ⟨loaded, data, hloaded, -⟩ := averageFiles_eq_some h
  have hmem : (load f.2).map (Prod.mk f.1) ∈ loaded.map some := by
    rw [← hloaded]
    exact List.mem_map_of_mem hf
  obtain ⟨e, -, he⟩ := List.mem_map.mp hmem
  obtain ⟨v, hv, -⟩ := Option.map_eq_some_iff.mp he.symm
  exact ⟨v, hv⟩

theorem dict_of_share (h : averageFiles load state rule write weightOf files = some c)
    (hnodup : (files.map Prod.fst).Nodup) {f : WorkerId × Bytes} (hf : f ∈ files)
    (hshare : f.1 ∈ c.workers) : ∃ d, load f.2 = some (.dict d) := by
  obtain ⟨loaded, data, hloaded, rfl⟩ := averageFiles_eq_some h
  simp only [Merged.workers, sharesOf, List.map_map, List.mem_map, Function.comp_apply,
    List.mem_filter] at hshare
  obtain ⟨⟨⟨⟨w, v⟩, s⟩, q⟩, ⟨hzip, hdict⟩, hw⟩ := hshare
  obtain ⟨e, he, hstate⟩ := List.mem_filterMap.mp (List.of_mem_zip hzip).1
  obtain ⟨s', -, heq⟩ := Option.map_eq_some_iff.mp hstate
  obtain rfl : e = (w, v) := (Prod.mk.inj heq).1
  have hmem : some (w, v) ∈ files.map fun f => (load f.2).map (Prod.mk f.1) := by
    rw [hloaded]
    exact List.mem_map_of_mem he
  obtain ⟨g, hg, hload⟩ := List.mem_map.mp hmem
  obtain ⟨v', hv', heq'⟩ := Option.map_eq_some_iff.mp hload
  obtain ⟨hgw, rfl⟩ := Prod.mk.inj heq'
  obtain rfl : g = f := List.inj_on_of_nodup_map hnodup hg hf (hgw.trans hw)
  obtain ⟨d, rfl⟩ := isDict_iff.mp hdict
  exact ⟨d, hv'⟩

theorem shares_of_dict (h : averageFiles load state rule write weightOf files = some c)
    (hstate : ∀ d, ∃ s, state (.dict d) = some s)
    (hdict : ∀ f ∈ files, ∃ d, load f.2 = some (.dict d)) :
    ∃ k : ℚ, k ≠ 0 ∧ c.shares = files.map fun f => (f.1, k * weightOf f.1) := by
  obtain ⟨loaded, data, hloaded, rfl⟩ := averageFiles_eq_some h
  have : Nonempty (NestedDict L) := ⟨.nil⟩
  have : Nonempty (Value L) := ⟨.dict .nil⟩
  choose! d hd using hdict
  choose s hs using hstate
  obtain rfl : loaded = files.map fun f => (f.1, .dict (d f)) := by
    refine List.map_injective_iff.mpr (Option.some_injective _) ?_
    rw [← hloaded, List.map_map]
    exact List.map_congr_left fun f hf => by rw [hd f hf]; rfl
  obtain ⟨k, hk, hactive⟩ := activeWeights_eq
    ((files.map fun f => (f.1, Value.dict (d f))).map fun c => weightOf c.1)
  refine ⟨k, hk, ?_⟩
  have hstates : (files.map fun f => (f.1, Value.dict (d f))).filterMap
      (fun c => (state c.2).map (Prod.mk c)) =
      files.map fun f => ((f.1, Value.dict (d f)), s (d f)) := by
    rw [List.filterMap_map, ← List.filterMap_eq_map]
    congr 1
    funext f
    simp [hs]
  rw [Merged.shares, contributionsOf, hactive, hstates, List.map_map, List.map_map,
    List.zip_map', sharesOf, List.filter_eq_self.mpr, List.map_map]
  · rfl
  · intro e he
    obtain ⟨f, -, rfl⟩ := List.mem_map.mp he
    rfl

end Values

section Formats

variable {τ υ σ α : Type} (fmt : Formats τ υ σ α) (weightOf : WorkerId → ℚ)

/-- The state dictionary of a checkpoint: what is under `"state_dict"`, a dictionary under
`"model"`, or the checkpoint itself. -/
def stateDict : Value (TorchLeaf τ) → Option (Value (TorchLeaf τ))
  | .leaf _ => none
  | .dict d =>
    match d.get "state_dict", d.get "model" with
    | some state, _ => some state
    | none, some (.dict model) => some (.dict model)
    | none, _ => some (.dict d)

/-- A checkpoint that has its state dictionary under a key, and the key. -/
def fullCheckpoint : Value (TorchLeaf τ) → Option (NestedDict (TorchLeaf τ) × String)
  | .leaf _ => none
  | .dict d =>
    match d.get "state_dict", d.get "model" with
    | some _, _ => some (d, "state_dict")
    | none, some (.dict _) => some (d, "model")
    | none, _ => none

/-- Put the average into the last full checkpoint, if there is one, and save it. -/
def saveCheckpoint (loaded : List (Value (TorchLeaf τ))) (mergedSd : Value (TorchLeaf τ)) :
    Option Bytes :=
  match (loaded.filterMap fullCheckpoint).getLast? with
  | some (outer, key) => fmt.torchSave (.dict (outer.set key mergedSd))
  | none => fmt.torchSave mergedSd

/-- Save the average of JSON files of which the first holds a dictionary. -/
def saveJson (loaded : List (Value (JsonLeaf σ))) (mergedJson : Value (JsonLeaf σ)) :
    Option Bytes :=
  match loaded with
  | .dict _ :: _ => fmt.jsonDump mergedJson
  | _ => none

/-- Concatenate the arrays in the files of some workers. -/
def concatenateFiles (files : List (WorkerId × Bytes)) : Option Merged := do
  let arrays ← files.mapM fun f => fmt.npyLoad f.2
  if arrays.isEmpty then none
  else
    let concatenated ← fmt.concatenate arrays
    let data ← fmt.npySave concatenated
    some (.concatenated (files.map Prod.fst) data)

/-- Merge the files of a name, if they are of a type that is merged and can be. -/
def combine (n : RelName) (files : List (WorkerId × Bytes)) : Option Merged :=
  match n.kind with
  | .pytorch =>
    averageFiles fmt.torchLoad stateDict (pytorchRule fmt.castTotal) (saveCheckpoint fmt) weightOf
      files
  | .npz =>
    averageFiles (fun data => (fmt.npzLoad data).map .dict) some (numpyRule fmt.asFloat64)
      (fun _ => fmt.npzSave) weightOf files
  | .safetensors =>
    averageFiles (fun data => (fmt.safetensorsLoad data).map .dict) some (numpyRule fmt.asFloat64)
      (fun _ => fmt.safetensorsSave) weightOf files
  | .json =>
    averageFiles fmt.jsonLoad some (jsonRule fmt.jsonReading) (saveJson fmt) weightOf files
  | .features => concatenateFiles fmt files
  | .other => none

/-- What a file must hold to have a part in a merged one: a dictionary, where that is not certain
from its type. -/
def HoldsDictionary (n : RelName) (data : Bytes) : Prop :=
  match n.kind with
  | .pytorch => ∃ d, fmt.torchLoad data = some (.dict d)
  | .json => ∃ d, fmt.jsonLoad data = some (.dict d)
  | _ => True

variable {fmt weightOf}

theorem exists_stateDict (d : NestedDict (TorchLeaf τ)) : ∃ s, stateDict (.dict d) = some s := by
  rw [stateDict]
  split <;> exact ⟨_, rfl⟩

theorem combine_eq_concatenate {n : RelName} (hkind : n.kind = .features)
    {files : List (WorkerId × Bytes)} {c : Merged} (h : combine fmt weightOf n files = some c) :
    ∃ data, c = .concatenated (files.map Prod.fst) data := by
  rw [combine, hkind] at h
  simp only [concatenateFiles, Option.bind_eq_bind, Option.bind_eq_some_iff] at h
  obtain ⟨arrays, -, h⟩ := h
  split_ifs at h
  obtain ⟨concatenated, -, h⟩ := Option.bind_eq_some_iff.mp h
  obtain ⟨data, -, h⟩ := Option.bind_eq_some_iff.mp h
  exact ⟨data, (Option.some.inj h).symm⟩

/-- **Whose files are in a merged file**: those that hold what is merged. -/
theorem holds_of_mem_workers {n : RelName} {files : List (WorkerId × Bytes)} {c : Merged}
    (h : combine fmt weightOf n files = some c) (hnodup : (files.map Prod.fst).Nodup)
    {f : WorkerId × Bytes} (hf : f ∈ files) (hmem : f.1 ∈ c.workers) :
    HoldsDictionary fmt n f.2 := by
  cases hkind : n.kind with
  | pytorch =>
    rw [combine, hkind] at h
    rw [HoldsDictionary, hkind]
    exact dict_of_share h hnodup hf hmem
  | json =>
    rw [combine, hkind] at h
    rw [HoldsDictionary, hkind]
    exact dict_of_share h hnodup hf hmem
  | npz | safetensors | features | other =>
    rw [HoldsDictionary, hkind]
    trivial

/-- An average has been made of files that were loaded, each as a dictionary. -/
theorem dict_of_average {L : Type} {load : Bytes → Option (NestedDict L)}
    {state : Value L → Option (Value L)} {rule : String → L → List (Found L × ℚ) → Option L}
    {write : List (Value L) → Value L → Option Bytes} {files : List (WorkerId × Bytes)}
    {c : Merged} (h : averageFiles (fun data => (load data).map .dict) state rule write weightOf
      files = some c) :
    ∀ f ∈ files, ∃ d, (load f.2).map Value.dict = some (.dict d) := by
  intro f hf
  obtain ⟨v, hv⟩ := loaded_of_average h hf
  obtain ⟨d, -, rfl⟩ := Option.map_eq_some_iff.mp hv
  exact ⟨d, hv⟩

/-- **The shares in an average of dictionaries**: the weights, up to a common factor. -/
theorem shares_of_combine {n : RelName} {files : List (WorkerId × Bytes)} {c : Merged}
    (h : combine fmt weightOf n files = some c) (hkind : n.kind ≠ .features)
    (hdict : ∀ f ∈ files, HoldsDictionary fmt n f.2) :
    ∃ k : ℚ, k ≠ 0 ∧ c.shares = files.map fun f => (f.1, k * weightOf f.1) := by
  cases hk : n.kind with
  | pytorch =>
    rw [combine, hk] at h
    simp only [HoldsDictionary, hk] at hdict
    exact shares_of_dict h exists_stateDict hdict
  | npz =>
    rw [combine, hk] at h
    exact shares_of_dict h (fun d => ⟨.dict d, rfl⟩) (dict_of_average h)
  | safetensors =>
    rw [combine, hk] at h
    exact shares_of_dict h (fun d => ⟨.dict d, rfl⟩) (dict_of_average h)
  | json =>
    rw [combine, hk] at h
    simp only [HoldsDictionary, hk] at hdict
    exact shares_of_dict h (fun d => ⟨.dict d, rfl⟩) hdict
  | features => exact absurd hk hkind
  | other =>
    rw [combine, hk] at h
    cases h

theorem combine_eq_average {n : RelName} {files : List (WorkerId × Bytes)} {c : Merged}
    (h : combine fmt weightOf n files = some c) (hkind : n.kind ≠ .features) :
    ∃ shares data, c = .averaged shares data := by
  cases hk : n.kind with
  | features => exact absurd hk hkind
  | other =>
    rw [combine, hk] at h
    cases h
  | pytorch | npz | safetensors | json =>
    rw [combine, hk] at h
    obtain ⟨loaded, data, -, rfl⟩ := averageFiles_eq_some h
    exact ⟨_, data, rfl⟩

theorem workers_of_combine {n : RelName} {files : List (WorkerId × Bytes)} {c : Merged}
    (h : combine fmt weightOf n files = some c)
    (hdict : ∀ f ∈ files, HoldsDictionary fmt n f.2) : c.workers = files.map Prod.fst := by
  by_cases hkind : n.kind = .features
  · obtain ⟨data, rfl⟩ := combine_eq_concatenate hkind h
    rfl
  · obtain ⟨shares, data, rfl⟩ := combine_eq_average h hkind
    obtain ⟨k, -, hshares⟩ := shares_of_combine h hkind hdict
    have hfst := congrArg (List.map Prod.fst) hshares
    rw [List.map_map] at hfst
    exact hfst

end Formats

end Aidars.Training
