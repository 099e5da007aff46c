import Aidars.Foundations.Decimal
import Aidars.Foundations.Entries
import Aidars.Foundations.FileTree
import Aidars.Foundations.Paths
import Aidars.Foundations.WeightedMean
import Mathlib.Algebra.Order.Field.Rat

/-!
# Outputs of the workers

The merger is given the outputs of some workers, of which some are missing, and weights. `workerMap`
has those that are there, `normalizeWeights` gives each a weight, and `filesByName` collects the
files of one name from all of them.

`get_normalizeWeights` says what weight a worker has: up to a common factor the one that it is given
by its place among the workers that are there (`usedWeight`). `find_filesByName` says that the index
has each file, under its name and its worker.
-/

namespace Aidars.Training

/-- The name of a worker, which becomes part of names of files. -/
@[ext] structure WorkerId where
  text : String
  no_slash : '/' ∉ text.toList

instance : DecidableEq WorkerId := fun _ _ => decidable_of_iff' _ WorkerId.ext_iff

/-- The path of a file from the directory of its worker. -/
structure RelName where
  parent : Path
  base : PathName
  deriving DecidableEq

namespace RelName

/-- The names of the directories, and that of the file. -/
def path (n : RelName) : Path := n.parent ++ [n.base]

theorem path_inj {m n : RelName} : m.path = n.path ↔ m = n := by
  constructor
  · intro h
    obtain ⟨hparent, hbase⟩ := List.append_inj' h rfl
    cases m
    cases n
    cases hparent
    cases hbase
    rfl
  · rintro rfl
    rfl

end RelName

/-- What there is at the path of a worker's output. -/
inductive Output
  | missing
  | file (name : PathName) (data : Bytes)
  | directory (files : Dict RelName Bytes)

/-- `p.exists()` -/
def Output.exists? : Output → Bool
  | .missing => false
  | .file .. | .directory _ => true

/-- The files that are found at a path, in the order in which they are found. -/
def Output.files : Output → List (RelName × Bytes)
  | .missing => []
  | .file name data => [(⟨[], name⟩, data)]
  | .directory files => files.entries

/-- Outputs of workers, in a list or by names. -/
inductive WorkerOutputs
  | list (outputs : List Output)
  | mapping (outputs : Dict WorkerId Output)

/-- Weights of workers, in a list or by names. -/
inductive WorkerWeights
  | list (weights : List ℚ)
  | mapping (weights : Dict WorkerId ℚ)

/-- The name that a worker has by its place in a list. -/
def workerName (idx : ℕ) : WorkerId where
  text := "worker_" ++ toString idx
  no_slash := by
    intro hmem
    rw [String.toList_append, List.mem_append, Nat.toString_eq_repr, Nat.toList_repr] at hmem
    rcases hmem with hmem | hmem
    · revert hmem
      decide
    · have hdigit := Nat.isDigit_of_mem_toDigits (by decide) (by decide) hmem
      revert hdigit
      decide

theorem workerName_inj {i j : ℕ} (h : workerName i = workerName j) : i = j := by
  have htext : "worker_" ++ toString i = "worker_" ++ toString j := congrArg WorkerId.text h
  have hdigits : (toString i).toList = (toString j).toList := by
    have hlist := congrArg String.toList htext
    rw [String.toList_append, String.toList_append] at hlist
    exact List.append_cancel_left hlist
  rw [Nat.toString_eq_repr, Nat.toString_eq_repr, Nat.toList_repr, Nat.toList_repr] at hdigits
  rw [← digitsValue_toDigits i, hdigits, digitsValue_toDigits]

namespace WorkerOutputs

/-- The workers with their outputs. -/
def items : WorkerOutputs → List (WorkerId × Output)
  | .list outputs => outputs.zipIdx.map fun p => (workerName p.2, p.1)
  | .mapping outputs => outputs.entries

/-- The workers, in order. -/
def workers (o : WorkerOutputs) : List WorkerId := o.items.map Prod.fst

/-- A worker has a file with some name and data. -/
def HasFile (o : WorkerOutputs) (w : WorkerId) (n : RelName) (data : Bytes) : Prop :=
  ∃ out, (w, out) ∈ o.items ∧ (n, data) ∈ out.files

/-- The outputs that are there. -/
def workerMap (o : WorkerOutputs) : Dict WorkerId Output :=
  .ofList (o.items.filter fun e => e.2.exists?)

/-- The workers whose outputs are there, in order. -/
def workerKeys (o : WorkerOutputs) : List WorkerId := o.workerMap.keys

theorem nodup_workerKeys (o : WorkerOutputs) : o.workerKeys.Nodup := o.workerMap.nodup

theorem workers_list (outputs : List Output) :
    (list outputs).workers = (List.range outputs.length).map workerName := by
  rw [workers, items, List.map_map, List.range_eq_range', ← List.zipIdx_map_snd 0 outputs,
    List.map_map]
  rfl

theorem nodup_workers (o : WorkerOutputs) : o.workers.Nodup := by
  cases o with
  | list outputs =>
    rw [workers_list]
    exact List.nodup_range.map fun _ _ => workerName_inj
  | mapping outputs => exact outputs.nodup

theorem get_workerMap {o : WorkerOutputs} {w : WorkerId} {out : Output} :
    o.workerMap.get? w = some out ↔ (w, out) ∈ o.items ∧ out.exists? = true := by
  have hnodup : ((o.items.filter fun e => e.2.exists?).map Prod.fst).Nodup :=
    o.nodup_workers.sublist (List.filter_sublist.map Prod.fst)
  rw [← Dict.mem_entries, workerMap, Dict.entries_ofList hnodup, List.mem_filter]

/-- A worker with a file is there. -/
theorem hasFile_iff {o : WorkerOutputs} {w : WorkerId} {n : RelName} {data : Bytes} :
    o.HasFile w n data ↔ ∃ out, o.workerMap.get? w = some out ∧ (n, data) ∈ out.files := by
  apply exists_congr
  intro out
  rw [get_workerMap, and_assoc]
  apply and_congr_right
  intro _
  cases out with
  | missing => simp [Output.files]
  | file name data' => simp [Output.exists?]
  | directory files => simp [Output.exists?]

end WorkerOutputs

/-! ## Weights -/

/-- A weight for each worker, from a list by their places. -/
def weightsDict (workerKeys : List WorkerId) : WorkerWeights → Dict WorkerId ℚ
  | .mapping weights => .ofList (workerKeys.map fun k => (k, (weights.get? k).getD 1))
  | .list weights => .ofList (workerKeys.zipIdx.map fun p => (p.1, weights.getD p.2 1))

/-- `{k: 1.0 / n for k in worker_keys}` -/
def equalWeights (workerKeys : List WorkerId) : Dict WorkerId ℚ :=
  .ofList (workerKeys.map fun k => (k, 1 / workerKeys.length))

/-- `_normalize_weights` -/
def normalizeWeights (workerKeys : List WorkerId) (workerWeights : Option WorkerWeights) :
    Dict WorkerId ℚ :=
  if workerKeys.length = 0 then ∅
  else
    match workerWeights with
    | none => equalWeights workerKeys
    | some weights =>
      let weights := weightsDict workerKeys weights
      let total := weights.values.sum
      if total ≤ 0 then equalWeights workerKeys
      else weights.mapValues fun _ v => v / total

/-- The weight of a worker in a dictionary, or in a list at its place among some workers. -/
def weightAt (workers : List WorkerId) (weights : Option WorkerWeights) (w : WorkerId) : ℚ :=
  match weights with
  | none => 1
  | some (.mapping weights) => (weights.get? w).getD 1
  | some (.list weights) => weights.getD (workers.idxOf w) 1

/-- The weights by the places of the workers, if these have a positive sum, and equal ones
otherwise. -/
def usedWeight (workers : List WorkerId) (weights : Option WorkerWeights) (w : WorkerId) : ℚ :=
  if 0 < (workers.map (weightAt workers weights)).sum then weightAt workers weights w else 1

theorem nodup_map_prodMk {workers : List WorkerId} (hnodup : workers.Nodup) {f : WorkerId → ℚ} :
    ((workers.map fun k => (k, f k)).map Prod.fst).Nodup := by
  rwa [List.map_map, show Prod.fst ∘ (fun k => (k, f k)) = id from rfl, List.map_id]

/-- The weights are entered by the places of the workers. -/
theorem entries_weightsDict {workers : List WorkerId} (hnodup : workers.Nodup)
    (weights : WorkerWeights) : (weightsDict workers weights).entries =
      workers.map fun k => (k, weightAt workers (some weights) k) := by
  cases weights with
  | mapping weights => exact Dict.entries_ofList (nodup_map_prodMk hnodup)
  | list weights =>
    have hplaces : (workers.zipIdx.map fun p => (p.1, weights.getD p.2 1)) =
        workers.map fun k => (k, weightAt workers (some (.list weights)) k) := by
      apply List.ext_getElem?
      intro i
      rw [List.getElem?_map, List.getElem?_map, List.getElem?_zipIdx]
      cases hi : workers[i]? with
      | none => rfl
      | some k =>
        obtain ⟨hlt, rfl⟩ := List.getElem?_eq_some_iff.mp hi
        simp [weightAt, hnodup.idxOf_getElem i hlt]
    rw [weightsDict, hplaces]
    exact Dict.entries_ofList (nodup_map_prodMk hnodup)

/-- **The normalized weights are the used ones, up to a common factor.** -/
theorem get_normalizeWeights {workers : List WorkerId} (hnodup : workers.Nodup)
    (weights : Option WorkerWeights) : ∃ c : ℚ, c ≠ 0 ∧ ∀ w ∈ workers,
      (normalizeWeights workers weights).get? w = some (c * usedWeight workers weights w) := by
  by_cases hempty : workers.length = 0
  · rw [List.length_eq_zero_iff.mp hempty]
    exact ⟨1, one_ne_zero, by simp⟩
  have hcount : (0 : ℚ) < workers.length := by
    rw [Nat.cast_pos]
    omega
  have hequal : ∀ w ∈ workers, (equalWeights workers).get? w = some (1 / workers.length : ℚ) := by
    intro w hw
    exact Dict.get?_ofList (nodup_map_prodMk hnodup) (List.mem_map.mpr ⟨w, hw, rfl⟩)
  unfold normalizeWeights
  rw [if_neg hempty]
  cases weights with
  | none =>
    refine ⟨1 / workers.length, (one_div_pos.mpr hcount).ne', fun w hw => ?_⟩
    simp [hequal w hw, usedWeight, weightAt]
  | some weights =>
    have hentries := entries_weightsDict hnodup weights
    have hsum : (weightsDict workers weights).values.sum =
        (workers.map (weightAt workers (some weights))).sum := by
      rw [Dict.values, hentries, List.map_map]
      rfl
    simp only [hsum, usedWeight]
    by_cases hpos : 0 < (workers.map (weightAt workers (some weights))).sum
    · refine ⟨1 / _, (one_div_pos.mpr hpos).ne', fun w hw => ?_⟩
      have hget : (weightsDict workers weights).get? w =
          some (weightAt workers (some weights) w) := by
        rw [← Dict.mem_entries, hentries]
        exact List.mem_map_of_mem hw
      rw [if_neg (not_le.mpr hpos), if_pos hpos, Dict.get?_mapValues, hget, Option.map_some,
        one_div_mul_eq_div]
    · refine ⟨1 / workers.length, (one_div_pos.mpr hcount).ne', fun w hw => ?_⟩
      rw [if_pos (not_lt.mp hpos), if_neg hpos, hequal w hw, mul_one]

/-! ## Files by name -/

/-- Enter a file of a worker. -/
def enter (byName : Dict RelName (Dict WorkerId Bytes)) (wid : WorkerId) (f : RelName × Bytes) :
    Dict RelName (Dict WorkerId Bytes) :=
  byName.set f.1 (((byName.get? f.1).getD ∅).set wid f.2)

/-- The files of all workers, by their names. -/
def filesByName (workerMap : Dict WorkerId Output) : Dict RelName (Dict WorkerId Bytes) :=
  workerMap.entries.foldl (fun byName e => e.2.files.foldl (enter · e.1) byName) ∅

/-- The file of a worker with some name. -/
def find (byName : Dict RelName (Dict WorkerId Bytes)) (f : WorkerId × RelName) : Option Bytes :=
  (byName.get? f.2).bind (·.get? f.1)

theorem find_enter (byName : Dict RelName (Dict WorkerId Bytes)) (wid : WorkerId)
    (f : RelName × Bytes) (g : WorkerId × RelName) :
    find (enter byName wid f) g = if g = (wid, f.1) then some f.2 else find byName g := by
  obtain ⟨w, n⟩ := g
  simp only [find, enter, Dict.get?_set, Prod.mk.injEq]
  by_cases hn : n = f.1
  · subst hn
    rw [if_pos rfl, Option.bind_some, Dict.get?_set]
    by_cases hw : w = wid
    · simp [hw]
    · cases byName.get? f.1 <;> simp [hw]
  · simp [hn]

/-- What tells the files of the workers apart. -/
def fileKey (f : WorkerId × RelName × Bytes) : WorkerId × RelName := (f.1, f.2.1)

/-- The files of all workers, one after the other. -/
def allFiles (workerMap : Dict WorkerId Output) : List (WorkerId × RelName × Bytes) :=
  workerMap.entries.flatMap fun e => e.2.files.map (Prod.mk e.1)

theorem filesByName_eq (workerMap : Dict WorkerId Output) :
    filesByName workerMap =
      (allFiles workerMap).foldl (fun byName f => enter byName f.1 f.2) ∅ := by
  rw [filesByName, allFiles, List.foldl_flatMap]
  congr 1
  funext byName e
  rw [List.foldl_map]

theorem mem_allFiles {workerMap : Dict WorkerId Output} {w : WorkerId} {n : RelName}
    {data : Bytes} : (w, n, data) ∈ allFiles workerMap ↔
      ∃ out, workerMap.get? w = some out ∧ (n, data) ∈ out.files := by
  simp only [allFiles, List.mem_flatMap, List.mem_map, Prod.exists, Prod.mk.injEq,
    Dict.mem_entries]
  constructor
  · rintro ⟨w', out, hout, n', data', hfile, rfl, rfl, rfl⟩
    exact ⟨out, hout, hfile⟩
  · rintro ⟨out, hout, hfile⟩
    exact ⟨w, out, hout, n, data, hfile, rfl, rfl, rfl⟩

/-- A worker has one file of a name. -/
theorem nodup_allFiles (workerMap : Dict WorkerId Output) :
    ((allFiles workerMap).map fileKey).Nodup := by
  rw [allFiles, List.map_flatMap, List.nodup_flatMap]
  constructor
  · rintro ⟨w, out⟩ -
    have hnames : (out.files.map Prod.fst).Nodup := by
      cases out with
      | missing => exact List.nodup_nil
      | file name data => exact List.nodup_singleton _
      | directory files => exact files.nodup
    rw [List.map_map, show fileKey ∘ Prod.mk w = Prod.mk w ∘ Prod.fst from rfl, ← List.map_map]
    exact hnames.map fun _ _ h => (Prod.mk.inj h).2
  · refine (List.pairwise_map.mp workerMap.nodup).imp fun hne => ?_
    rw [Function.onFun_apply, List.disjoint_left]
    intro f hf hf'
    simp only [List.map_map, List.mem_map, Function.comp_apply] at hf hf'
    obtain ⟨g, -, rfl⟩ := hf
    obtain ⟨g', -, heq⟩ := hf'
    exact hne (Prod.mk.inj heq).1.symm

/-- **The index has each file, under its name and its worker.** -/
theorem find_filesByName {workerMap : Dict WorkerId Output} {w : WorkerId} {n : RelName}
    {data : Bytes} : find (filesByName workerMap) (w, n) = some data ↔
      ∃ out, workerMap.get? w = some out ∧ (n, data) ∈ out.files := by
  rw [← mem_allFiles, filesByName_eq]
  have hstep : ∀ (byName : Dict RelName (Dict WorkerId Bytes)) (f : WorkerId × RelName × Bytes)
      (g : WorkerId × RelName), True → find (enter byName f.1 f.2) g =
        if g = fileKey f then some f.2.2 else find byName g :=
    fun byName f g _ => find_enter byName f.1 f.2 g
  have hmem : ∀ f ∈ allFiles workerMap, find ((allFiles workerMap).foldl
      (fun byName f => enter byName f.1 f.2) ∅) (fileKey f) = some f.2.2 := fun f hf =>
    foldl_view_of_mem fileKey find (fun f _ => some f.2.2) (fun _ => True)
      (fun _ _ _ => trivial) hstep trivial (nodup_allFiles workerMap) hf
  constructor
  · intro h
    by_cases hkey : (w, n) ∈ (allFiles workerMap).map fileKey
    · obtain ⟨⟨w', n', data'⟩, hf, heq⟩ := List.mem_map.mp hkey
      obtain ⟨rfl, rfl⟩ := Prod.mk.inj heq
      have hdata := (hmem _ hf).symm.trans h
      obtain rfl : data' = data := Option.some.inj hdata
      exact hf
    · have hnone : find _ (w, n) = find ∅ (w, n) := foldl_view_of_notMem fileKey find
        (fun f _ => some f.2.2) (fun _ => True) (fun _ _ _ => trivial) hstep trivial hkey
      have hsome := hnone.symm.trans h
      cases hsome
  · exact fun hfile => hmem (w, n, data) hfile

theorem mem_filesByName {workerMap : Dict WorkerId Output} {n : RelName}
    {files : Dict WorkerId Bytes} (h : (n, files) ∈ (filesByName workerMap).entries) :
    files.entries ≠ [] ∧ ∀ w ∈ files.keys, w ∈ workerMap.keys := by
  constructor
  · revert h
    rw [filesByName_eq, Dict.mem_entries]
    revert n files
    refine foldl_invariant (fun byName : Dict RelName (Dict WorkerId Bytes) =>
      ∀ {n files}, byName.get? n = some files → files.entries ≠ []) ?_ ?_
    · intro byName f hinv n files h hnil
      rw [enter, Dict.get?_set] at h
      split_ifs at h
      · obtain rfl := Option.some.inj h
        have hmem : (f.1, f.2.2) ∈ (((byName.get? f.2.1).getD ∅).set f.1 f.2.2).entries :=
          Dict.mem_entries.mpr (by simp)
        rw [hnil] at hmem
        cases hmem
      · exact hinv h hnil
    · intro n files h
      cases h
  · intro w hw
    obtain ⟨data, hdata⟩ := Dict.mem_keys.mp hw
    have hfind : find (filesByName workerMap) (w, n) = some data := by
      rw [find, Dict.mem_entries.mp h]
      exact hdata
    obtain ⟨out, hout, -⟩ := find_filesByName.mp hfind
    exact Dict.mem_keys.mpr ⟨out, hout⟩

end Aidars.Training
