import Aidars.Training.MergePlan

/-!
# What a merge keeps

`MergeLaws` is what is asked of a merge: in an average the shares of the workers are in proportion
to the weights that were given for them, and every other file has a path of its own in the results,
at which its copy is. `mergeWorkerMlOutputs_laws` says exactly when that is so. Weights go to the
wrong worker where a directory is missing before it in a list; a checkpoint that holds no dictionary
is lost; a new name may be that of another file, and a directory may be in the place of a file.

Where the merger puts everything at some path of the results, its moves did not disturb each other
(`undisturbed_of_laws`), and where they do not, everything is at its own path
(`laws_of_undisturbed`).
-/

namespace Aidars.Training

open Filed WeightedMean

section Merge

variable {τ υ σ α : Type} (fmt : Formats τ υ σ α) (t₀ : FileTree PathName Bytes)
  (workerOutputs : WorkerOutputs) (workerWeights : Option WorkerWeights)

/-! ## What is asked of a merge -/

/-- The files of a name, in the order of the workers. -/
def filesNamed (n : RelName) : List (WorkerId × Bytes) :=
  inOrder workerOutputs.workerKeys (((filesByName workerOutputs.workerMap).get? n).getD ∅)

/-- What can be made of the files of a name. -/
def mergedFile (n : RelName) : Option Merged :=
  combine fmt (normalizedWeight workerOutputs workerWeights) n (filesNamed workerOutputs n)

/-- The weight that is given for a worker, by its name or by its place in the list of outputs. -/
def suppliedWeight (wid : WorkerId) : ℚ := weightAt workerOutputs.workers workerWeights wid

/-- The merged file of a name is in the results, and at its path. -/
def MergedInto (s : MergeState) (n : RelName) (c : Merged) : Prop :=
  s.listed.get? n.path = some n.path ∧ s.tree n.path = some (.file ⟨some (.merged n), c.data⟩)

/-- A path in the results is that of a copy of a worker's file. -/
def Kept (s : MergeState) (wid : WorkerId) (n : RelName) (data : Bytes) (p : Path) : Prop :=
  p ∈ s.listed.values ∧ ∃ i : Item, i.IsCopy n wid ∧ s.tree p = some (.file ⟨some i, data⟩)

/-- **What is asked of a merge.** -/
structure MergeLaws (s : MergeState) : Prop where
  /-- In an average the shares are in proportion to the weights given for the workers. -/
  weighted : ∀ n c, mergedFile fmt workerOutputs workerWeights n = some c → MergedInto s n c →
    InProportion (c.shares.map fun e => (e.2, suppliedWeight workerOutputs workerWeights e.1))
  /-- Every file is in a merged file, or has a path in the results where its copy is. -/
  own : ∀ wid n data, workerOutputs.HasFile wid n data →
    (∃ c, mergedFile fmt workerOutputs workerWeights n = some c ∧ MergedInto s n c ∧
      wid ∈ c.workers) ∨ ∃ p, Kept s wid n data p
  /-- No two copies have one path. -/
  distinct : ∀ wid n data wid' n' data' p, Kept s wid n data p → Kept s wid' n' data' p →
    wid = wid' ∧ n = n'
  /-- No copy has the path of a merged file. -/
  apart : ∀ wid n data p n' c, Kept s wid n data p → MergedInto s n' c → p ≠ n'.path

/-! ## When a merge keeps it -/

/-- The files that are gone through, by their names. -/
def groupsOf : List (RelName × Dict WorkerId Bytes) :=
  (filesByName workerOutputs.workerMap).entries

/-- What the merger does. -/
def movesOf : List (Move Item Path PathName Bytes) :=
  .folder [] :: script (combineGroup fmt workerOutputs workerWeights) (before t₀) [[]]
    (groupsOf workerOutputs)

/-- What is put into the directory, as far as it is known beforehand. -/
def plan : List Item := (deposits (movesOf fmt t₀ workerOutputs workerWeights)).map Deposit.item

/-- The directories that are needed. -/
def neededFolders : List Path := [] :: (groupsOf workerOutputs).map fun g => g.1.parent

/-- **When a merge keeps what is asked of it.** -/
structure Undisturbed : Prop where
  /-- The weights at the places of the workers that are there are in proportion to those given for
  them, for the workers whose files are averaged. -/
  weights : ∀ n, .merged n ∈ plan fmt t₀ workerOutputs workerWeights → n.kind ≠ .features →
    InProportion ((filesNamed workerOutputs n).map fun f =>
      (usedWeight workerOutputs.workerKeys workerWeights f.1,
        suppliedWeight workerOutputs workerWeights f.1))
  /-- Every file that goes into an average holds a dictionary. -/
  dictionaries : ∀ n, .merged n ∈ plan fmt t₀ workerOutputs workerWeights →
    ∀ f ∈ filesNamed workerOutputs n, HoldsDictionary fmt n f.2
  /-- A merged file is saved under its name. -/
  saved : ∀ n, .merged n ∈ plan fmt t₀ workerOutputs workerWeights → n.savePath = n.path
  /-- No two files get one new name, in whatever directories. -/
  renamed : ∀ n wid n' wid', .shared n wid ∈ plan fmt t₀ workerOutputs workerWeights →
    .shared n' wid' ∈ plan fmt t₀ workerOutputs workerWeights →
    n.distinctName wid = n'.distinctName wid' → n = n' ∧ wid = wid'
  /-- No file that keeps its name has a new name for it, in the directory of the renamed file or in
  the upper one. -/
  kept : ∀ n wid n', .shared n wid ∈ plan fmt t₀ workerOutputs workerWeights →
    (.merged n' ∈ plan fmt t₀ workerOutputs workerWeights ∨
      ∃ wid', .alone n' wid' ∈ plan fmt t₀ workerOutputs workerWeights) →
    n'.path ≠ n.distinctPath wid ∧ n'.path ≠ [n.distinctName wid]
  /-- No file is put where a directory is or is needed. -/
  folders : ∀ i ∈ plan fmt t₀ workerOutputs workerWeights, t₀.isDir i.dest = false ∧
    ∀ q ∈ neededFolders workerOutputs, ¬ i.dest <+: q
  /-- No file is where a directory is needed. -/
  files : ∀ q ∈ neededFolders workerOutputs, ∀ p, p <+: q → t₀.isFile p = false

variable {fmt t₀ workerOutputs workerWeights} {s : MergeState} {n : RelName} {c : Merged}
  {wid : WorkerId} {data : Bytes} {g : RelName × Dict WorkerId Bytes}

/-! ## Files and groups -/

theorem mem_entries_iff (hg : g ∈ groupsOf workerOutputs) :
    (wid, data) ∈ g.2.entries ↔ workerOutputs.HasFile wid g.1 data := by
  rw [WorkerOutputs.hasFile_iff, ← find_filesByName, Dict.mem_entries, find,
    Dict.mem_entries.mp (show (g.1, g.2) ∈ _ from hg), Option.bind_some]

theorem exists_group_of_hasFile (h : workerOutputs.HasFile wid n data) :
    ∃ files, (n, files) ∈ groupsOf workerOutputs ∧ (wid, data) ∈ files.entries := by
  have hfind := find_filesByName.mpr (WorkerOutputs.hasFile_iff.mp h)
  obtain ⟨files, hget, hfile⟩ := Option.bind_eq_some_iff.mp hfind
  exact ⟨files, Dict.mem_entries.mpr hget, Dict.mem_entries.mpr hfile⟩

theorem exists_hasFile (hg : g ∈ groupsOf workerOutputs) :
    ∃ wid data, workerOutputs.HasFile wid g.1 data := by
  obtain ⟨⟨wid, data⟩, hf⟩ := List.exists_mem_of_ne_nil _ (mem_filesByName hg).1
  exact ⟨wid, data, (mem_entries_iff hg).mp hf⟩

theorem nodup_names (workerOutputs : WorkerOutputs) :
    ((groupsOf workerOutputs).map Prod.fst).Nodup :=
  (filesByName workerOutputs.workerMap).nodup

theorem mem_filesNamed :
    (wid, data) ∈ filesNamed workerOutputs n ↔ workerOutputs.HasFile wid n data := by
  rw [WorkerOutputs.hasFile_iff, ← find_filesByName, filesNamed, inOrder, List.mem_filterMap]
  constructor
  · rintro ⟨wid', -, heq⟩
    obtain ⟨data', hdata, heq'⟩ := Option.map_eq_some_iff.mp heq
    obtain ⟨rfl, rfl⟩ := Prod.mk.inj heq'
    rw [find]
    cases hget : (filesByName workerOutputs.workerMap).get? n with
    | none =>
      rw [hget] at hdata
      cases hdata
    | some files =>
      rw [hget] at hdata
      exact hdata
  · intro hfind
    obtain ⟨files, hget, hfile⟩ := Option.bind_eq_some_iff.mp hfind
    have hkey := (mem_filesByName (Dict.mem_entries.mpr hget)).2 wid (Dict.mem_keys.mpr ⟨_, hfile⟩)
    refine ⟨wid, hkey, ?_⟩
    rw [hget, Option.getD_some, hfile]
    rfl

theorem nodup_filesNamed (workerOutputs : WorkerOutputs) (n : RelName) :
    ((filesNamed workerOutputs n).map Prod.fst).Nodup := by
  rw [filesNamed, inOrder, List.map_filterMap]
  refine List.Nodup.filterMap ?_ workerOutputs.workerMap.nodup
  intro wid wid' b hb hb'
  simp only [Option.map_map, Option.mem_def, Option.map_eq_some_iff] at hb hb'
  obtain ⟨x, -, hb⟩ := hb
  obtain ⟨x', -, hb'⟩ := hb'
  exact hb.trans hb'.symm

theorem combineGroup_eq (hg : g ∈ groupsOf workerOutputs) :
    combineGroup fmt workerOutputs workerWeights g.1 g.2 =
      mergedFile fmt workerOutputs workerWeights g.1 := by
  rw [combineGroup, mergedFile, filesNamed, Dict.mem_entries.mp (show (g.1, g.2) ∈ _ from hg),
    Option.getD_some]

/-! ## Shares -/

theorem exists_normalizedWeight (workerOutputs : WorkerOutputs)
    (workerWeights : Option WorkerWeights) : ∃ k : ℚ, k ≠ 0 ∧ ∀ wid ∈ workerOutputs.workerKeys,
      normalizedWeight workerOutputs workerWeights wid =
        k * usedWeight workerOutputs.workerKeys workerWeights wid := by
  obtain ⟨k, hk, hget⟩ := get_normalizeWeights workerOutputs.nodup_workerKeys workerWeights
  refine ⟨k, hk, fun wid hwid => ?_⟩
  rw [normalizedWeight, hget wid hwid, Option.getD_some]

/-- The shares in an average of dictionaries are in proportion to the given weights if the used ones
are. -/
theorem shares_inProportion (hc : mergedFile fmt workerOutputs workerWeights n = some c)
    (hkind : n.kind ≠ .features)
    (hdict : ∀ f ∈ filesNamed workerOutputs n, HoldsDictionary fmt n f.2) :
    InProportion (c.shares.map fun e => (e.2, suppliedWeight workerOutputs workerWeights e.1)) ↔
      InProportion ((filesNamed workerOutputs n).map fun f =>
        (usedWeight workerOutputs.workerKeys workerWeights f.1,
          suppliedWeight workerOutputs workerWeights f.1)) := by
  obtain ⟨k, hk, hshares⟩ := shares_of_combine hc hkind hdict
  obtain ⟨k', hk', hnormalized⟩ := exists_normalizedWeight workerOutputs workerWeights
  refine Iff.trans (Eq.to_iff (congrArg InProportion ?_)) (inProportion_mul (mul_ne_zero hk hk'))
  rw [hshares, List.map_map, List.map_map]
  refine List.map_congr_left fun f hf => ?_
  have hkey : f.1 ∈ workerOutputs.workerKeys := by
    obtain ⟨wid, hwid, heq⟩ := List.mem_filterMap.mp hf
    obtain ⟨x, -, rfl⟩ := Option.map_eq_some_iff.mp heq
    exact hwid
  simp only [Function.comp_apply, hnormalized f.1 hkey, mul_assoc]

/-! ## Merged files and copies -/

theorem folders_movesOf : folders (movesOf fmt t₀ workerOutputs workerWeights) =
    neededFolders workerOutputs := by
  rw [movesOf, folders_cons_folder, folders_script]
  rfl

theorem moves_cases (hg : g ∈ groupsOf workerOutputs) :
    (∃ c, mergedFile fmt workerOutputs workerWeights g.1 = some c ∧
      ∀ d, d ∈ deposits (movesOf fmt t₀ workerOutputs workerWeights) ∧ d.item.name = g.1 ↔
        d = mergedDeposit g.1 c) ∨
    ∃ isDir, (∀ p, isDir p → IsFolder (before t₀) (neededFolders workerOutputs) p) ∧
      ∀ d, d ∈ deposits (movesOf fmt t₀ workerOutputs workerWeights) ∧ d.item.name = g.1 ↔
        ∃ f ∈ g.2.entries, copyDeposit isDir (copyItem g.1 g.2.entries f.1, f.2) = d := by
  rw [← combineGroup_eq hg]
  exact group_cases (nodup_names workerOutputs) hg

theorem exists_group_of_mem {i : Item} (h : i ∈ plan fmt t₀ workerOutputs workerWeights) :
    ∃ files, (i.name, files) ∈ groupsOf workerOutputs := by
  obtain ⟨d, hd, rfl⟩ := List.mem_map.mp h
  obtain ⟨g, hg, heq⟩ := List.mem_map.mp (name_mem hd)
  exact ⟨g.2, heq ▸ hg⟩

theorem of_merged_mem (h : .merged n ∈ plan fmt t₀ workerOutputs workerWeights) :
    ∃ c, mergedFile fmt workerOutputs workerWeights n = some c ∧
      ∀ d, d ∈ deposits (movesOf fmt t₀ workerOutputs workerWeights) ∧ d.item.name = n ↔
        d = mergedDeposit n c := by
  obtain ⟨files, hg⟩ := exists_group_of_mem h
  rcases moves_cases hg with hmerged | ⟨isDir, -, hcopies⟩
  · exact hmerged
  · obtain ⟨d, hd, hitem⟩ := List.mem_map.mp h
    obtain ⟨f, -, rfl⟩ := (hcopies d).mp ⟨hd, congrArg Item.name hitem⟩
    have hcopy := isCopy_copyItem n files.entries f.1
    rw [show copyItem n files.entries f.1 = .merged n from hitem] at hcopy
    rcases hcopy with hcopy | hcopy <;> cases hcopy

theorem eq_merged (h : .merged n ∈ plan fmt t₀ workerOutputs workerWeights) {i : Item}
    (hi : i ∈ plan fmt t₀ workerOutputs workerWeights) (hname : i.name = n) : i = .merged n := by
  obtain ⟨c, -, honly⟩ := of_merged_mem h
  obtain ⟨d, hd, rfl⟩ := List.mem_map.mp hi
  rw [(honly d).mp ⟨hd, hname⟩]
  rfl

theorem not_isCopy_merged {m : RelName} : ¬ (Item.merged m).IsCopy n wid := by
  rintro (h | h) <;> cases h

/-- What the run is like that the merger makes. -/
theorem ran_of_merge
    (h : mergeWorkerMlOutputs fmt t₀ workerOutputs workerWeights = some s) :
    Ran (before t₀) (movesOf fmt t₀ workerOutputs workerWeights) s :=
  ran_of_run (untouched_before t₀) ((merge_eq_run fmt t₀ workerOutputs workerWeights).mp h)

section Run

variable (hran : Ran (before t₀) (movesOf fmt t₀ workerOutputs workerWeights) s)

include hran

theorem mem_plan_of_tree {p : Path} {i : Item} (h : s.tree p = some (.file ⟨some i, data⟩)) :
    i ∈ plan fmt t₀ workerOutputs workerWeights := by
  obtain ⟨d, hd, rfl, -⟩ := hran.origin p i data h
  exact List.mem_map_of_mem hd

/-- There is no copy of a file of which there is a merged one. -/
theorem not_kept_of_merged (h : .merged n ∈ plan fmt t₀ workerOutputs workerWeights) {p : Path} :
    ¬ Kept s wid n data p := by
  rintro ⟨-, i, hcopy, htree⟩
  rw [eq_merged h (mem_plan_of_tree hran htree) hcopy.name] at hcopy
  exact not_isCopy_merged hcopy

/-! ## What the laws say about the plan -/

variable (hlaws : MergeLaws fmt workerOutputs workerWeights s)

include hlaws

theorem mergedInto_of_laws (h : .merged n ∈ plan fmt t₀ workerOutputs workerWeights) :
    ∃ c, mergedFile fmt workerOutputs workerWeights n = some c ∧ MergedInto s n c ∧
      ∀ f ∈ filesNamed workerOutputs n, f.1 ∈ c.workers := by
  have hmerged : ∀ wid data, workerOutputs.HasFile wid n data →
      ∃ c, mergedFile fmt workerOutputs workerWeights n = some c ∧ MergedInto s n c ∧
        wid ∈ c.workers := fun wid data hfile =>
    (hlaws.own wid n data hfile).resolve_right fun ⟨p, hkept⟩ => not_kept_of_merged hran h hkept
  obtain ⟨files, hg⟩ := exists_group_of_mem h
  obtain ⟨wid, data, hfile⟩ := exists_hasFile hg
  obtain ⟨c, hc, hinto, -⟩ := hmerged wid data hfile
  refine ⟨c, hc, hinto, fun f hf => ?_⟩
  obtain ⟨c', hc', -, hworker⟩ := hmerged f.1 f.2 (mem_filesNamed.mp hf)
  obtain rfl : c = c' := Option.some.inj (hc.symm.trans hc')
  exact hworker

/-- Everything that is put into the directory is at a path of the results. -/
theorem placed_of_laws :
    ∀ d ∈ deposits (movesOf fmt t₀ workerOutputs workerWeights),
      ∃ p ∈ s.listed.values, s.tree p = some (.file ⟨some d.item, d.data⟩) := by
  intro d hd
  obtain ⟨files, hg⟩ := exists_group_of_mem (List.mem_map_of_mem hd)
  generalize hname : d.item.name = n at hg
  rcases moves_cases hg with ⟨c, hc, honly⟩ | ⟨isDir, -, hcopies⟩
  · obtain rfl := (honly d).mp ⟨hd, hname⟩
    obtain ⟨c', hc', hinto, -⟩ := mergedInto_of_laws hran hlaws (List.mem_map_of_mem hd)
    obtain rfl : c = c' := Option.some.inj (hc.symm.trans hc')
    exact ⟨n.path, Dict.mem_values.mpr ⟨n.path, hinto.1⟩, hinto.2⟩
  · obtain ⟨f, hf, rfl⟩ := (hcopies d).mp ⟨hd, hname⟩
    rcases hlaws.own f.1 n f.2 ((mem_entries_iff hg).mp hf) with
      ⟨c, -, hinto, -⟩ | ⟨p, hp, i, hcopy, hi⟩
    · have hmerged := mem_plan_of_tree hran hinto.2
      have heq : copyItem n files.entries f.1 = .merged n :=
        eq_merged hmerged (List.mem_map_of_mem hd) hname
      exact absurd (heq ▸ isCopy_copyItem n files.entries f.1) not_isCopy_merged
    · refine ⟨p, hp, ?_⟩
      obtain ⟨d', hd', hitem, -⟩ := hran.origin p i f.2 hi
      obtain ⟨f', -, rfl⟩ := (hcopies d').mp ⟨hd', by rw [hitem, hcopy.name]⟩
      replace hitem : copyItem n files.entries f'.1 = i := hitem
      rw [← hitem] at hcopy hi
      obtain ⟨hwid, -⟩ := (isCopy_copyItem n files.entries f'.1).inj hcopy
      rw [hwid] at hi
      exact hi

/-- **A merge that keeps what is asked of it is undisturbed.** -/
theorem undisturbed_of_laws : Undisturbed fmt t₀ workerOutputs workerWeights := by
  have hclear := clear_of_placed hran (nodup_items (nodup_names workerOutputs))
    (placed_of_laws hran hlaws)
  have hdeposit : ∀ i ∈ plan fmt t₀ workerOutputs workerWeights,
      ∃ d ∈ deposits (movesOf fmt t₀ workerOutputs workerWeights),
        d.item = i ∧ d.key = i.key ∧ d.dest = i.dest := by
    intro i hi
    obtain ⟨d, hd, rfl⟩ := List.mem_map.mp hi
    obtain ⟨g, -, isDir, hmem⟩ := exists_group hd
    exact ⟨d, hd, rfl, (item_of_mem hmem).2⟩
  have hkey : ∀ i ∈ plan fmt t₀ workerOutputs workerWeights,
      ∀ j ∈ plan fmt t₀ workerOutputs workerWeights, i.key = j.key → i = j := by
    intro i hi j hj heq
    obtain ⟨d, hd, rfl, hk, -⟩ := hdeposit i hi
    obtain ⟨e, he, rfl, hk', -⟩ := hdeposit j hj
    exact congrArg _ (List.inj_on_of_nodup_map hclear.keys hd he (by rw [hk, heq, hk']))
  have hdest : ∀ i ∈ plan fmt t₀ workerOutputs workerWeights,
      ∀ j ∈ plan fmt t₀ workerOutputs workerWeights, i.dest = j.dest → i = j := by
    intro i hi j hj heq
    obtain ⟨d, hd, rfl, -, hk⟩ := hdeposit i hi
    obtain ⟨e, he, rfl, -, hk'⟩ := hdeposit j hj
    exact congrArg _ (List.inj_on_of_nodup_map hclear.dests hd he (by rw [hk, heq, hk']))
  have hdict : ∀ n, .merged n ∈ plan fmt t₀ workerOutputs workerWeights →
      ∀ f ∈ filesNamed workerOutputs n, HoldsDictionary fmt n f.2 := by
    intro n hn f hf
    obtain ⟨c, hc, -, hworkers⟩ := mergedInto_of_laws hran hlaws hn
    exact holds_of_mem_workers hc (nodup_filesNamed workerOutputs n) hf (hworkers f hf)
  constructor
  case weights =>
    intro n hn hkind
    obtain ⟨c, hc, hinto, -⟩ := mergedInto_of_laws hran hlaws hn
    rw [← shares_inProportion hc hkind (hdict n hn)]
    exact hlaws.weighted n c hc hinto
  case dictionaries => exact hdict
  case saved =>
    intro n hn
    obtain ⟨c, hc, hinto, -⟩ := mergedInto_of_laws hran hlaws hn
    obtain ⟨c', -, honly⟩ := of_merged_mem hn
    obtain ⟨d, hd, hitem, hplace, -⟩ := hran.origin _ _ _ hinto.2
    obtain rfl := (honly d).mp ⟨hd, congrArg Item.name hitem⟩
    exact hplace
  case renamed =>
    intro n wid n' wid' hi hj heq
    have hsame := hkey _ hi _ hj (by simp [Item.key, heq])
    obtain ⟨rfl, rfl⟩ := Item.shared.inj hsame
    exact ⟨rfl, rfl⟩
  case kept =>
    intro n wid n' hi hn'
    obtain ⟨j, hj, hjkey, hjdest, hne⟩ : ∃ j ∈ plan fmt t₀ workerOutputs workerWeights,
        j.key = n'.path ∧ j.dest = n'.path ∧ j ≠ .shared n wid := by
      rcases hn' with hj | ⟨wid', hj⟩
      · exact ⟨_, hj, rfl, rfl, by simp⟩
      · exact ⟨_, hj, rfl, rfl, by simp⟩
    constructor
    · intro heq
      exact hne (hdest _ hj _ hi (hjdest.trans heq))
    · intro heq
      exact hne (hkey _ hj _ hi (hjkey.trans heq))
  case folders =>
    intro i hi
    obtain ⟨d, hd, rfl, -, hk⟩ := hdeposit i hi
    have hfolder := hclear.dest d hd
    rw [folders_movesOf, hk, IsFolder, not_or, isDir_before] at hfolder
    refine ⟨by simpa using hfolder.1, fun q hq hpq => hfolder.2 ⟨q, hq, hpq⟩⟩
  case files =>
    intro q hq p hp
    rw [← isFile_before]
    exact hclear.folder q (folders_movesOf ▸ hq) p hp

end Run

/-! ## What an undisturbed merge keeps -/

/-- There is one copy of the only file of a name. -/
theorem alone_unique {wid' : WorkerId}
    (h : .alone n wid ∈ plan fmt t₀ workerOutputs workerWeights)
    (h' : .alone n wid' ∈ plan fmt t₀ workerOutputs workerWeights) : wid = wid' := by
  obtain ⟨files, hg⟩ := exists_group_of_mem h
  obtain ⟨d, hd, hitem⟩ := List.mem_map.mp h
  obtain ⟨e, he, hitem'⟩ := List.mem_map.mp h'
  rcases moves_cases hg with ⟨c, -, honly⟩ | ⟨isDir, -, hcopies⟩
  · obtain rfl := (honly d).mp ⟨hd, congrArg Item.name hitem⟩
    cases hitem
  · obtain ⟨f, hf, rfl⟩ := (hcopies d).mp ⟨hd, congrArg Item.name hitem⟩
    obtain ⟨f', hf', rfl⟩ := (hcopies e).mp ⟨he, congrArg Item.name hitem'⟩
    replace hitem : copyItem n files.entries f.1 = .alone n wid := hitem
    replace hitem' : copyItem n files.entries f'.1 = .alone n wid' := hitem'
    rw [copyItem] at hitem hitem'
    split_ifs at hitem with hlength
    rw [if_pos hlength] at hitem'
    obtain ⟨f₀, hf₀⟩ := List.length_eq_one_iff.mp hlength
    change files.entries = [f₀] at hf₀
    rw [hf₀, List.mem_singleton] at hf hf'
    cases hitem
    cases hitem'
    rw [hf, hf']

/-- Keys or paths tell the items apart, if those of renamed files are not those of others. -/
theorem inj_of_undisturbed (h : Undisturbed fmt t₀ workerOutputs workerWeights)
    (pathOf : Item → Path) (hmerged : ∀ n, pathOf (.merged n) = n.path)
    (halone : ∀ n wid, pathOf (.alone n wid) = n.path)
    (hshared : ∀ n wid n' wid', pathOf (.shared n wid) = pathOf (.shared n' wid') →
      n.distinctName wid = n'.distinctName wid')
    (hapart : ∀ (n : RelName) wid (n' : RelName),
      n'.path ≠ n.distinctPath wid ∧ n'.path ≠ [n.distinctName wid] →
        n'.path ≠ pathOf (.shared n wid)) :
    ∀ i ∈ plan fmt t₀ workerOutputs workerWeights,
      ∀ j ∈ plan fmt t₀ workerOutputs workerWeights, pathOf i = pathOf j → i = j := by
  intro i hi j hj heq
  cases i with
  | merged n =>
    cases j with
    | merged n' =>
      rw [hmerged, hmerged, RelName.path_inj] at heq
      rw [heq]
    | alone n' wid' =>
      rw [hmerged, halone, RelName.path_inj] at heq
      exact (eq_merged hi hj heq.symm).symm
    | shared n' wid' =>
      rw [hmerged] at heq
      exact absurd heq (hapart _ _ _ (h.kept _ _ _ hj (Or.inl hi)))
  | alone n wid =>
    cases j with
    | merged n' =>
      rw [hmerged, halone, RelName.path_inj] at heq
      exact eq_merged hj hi heq
    | alone n' wid' =>
      rw [halone, halone, RelName.path_inj] at heq
      subst heq
      rw [alone_unique hi hj]
    | shared n' wid' =>
      rw [halone] at heq
      exact absurd heq (hapart _ _ _ (h.kept _ _ _ hj (Or.inr ⟨wid, hi⟩)))
  | shared n wid =>
    cases j with
    | merged n' =>
      rw [hmerged] at heq
      exact absurd heq.symm (hapart _ _ _ (h.kept _ _ _ hi (Or.inl hj)))
    | alone n' wid' =>
      rw [halone] at heq
      exact absurd heq.symm (hapart _ _ _ (h.kept _ _ _ hi (Or.inr ⟨wid', hj⟩)))
    | shared n' wid' =>
      obtain ⟨rfl, rfl⟩ := h.renamed n wid n' wid' hi hj (hshared _ _ _ _ heq)
      rfl

theorem clear_of_undisturbed (h : Undisturbed fmt t₀ workerOutputs workerWeights) :
    Clear (before t₀) (movesOf fmt t₀ workerOutputs workerWeights) := by
  have hitems : ((deposits (movesOf fmt t₀ workerOutputs workerWeights)).map
      Deposit.item).Nodup := nodup_items (nodup_names workerOutputs)
  have hspec : ∀ d ∈ deposits (movesOf fmt t₀ workerOutputs workerWeights),
      d.key = d.item.key ∧ d.dest = d.item.dest := by
    intro d hd
    obtain ⟨g, -, isDir, hmem⟩ := exists_group hd
    exact (item_of_mem hmem).2
  have hitem : ∀ d ∈ deposits (movesOf fmt t₀ workerOutputs workerWeights),
      ∀ e ∈ deposits (movesOf fmt t₀ workerOutputs workerWeights), d.item = e.item → d = e :=
    fun d hd e he => List.inj_on_of_nodup_map hitems hd he
  constructor
  case keys =>
    refine List.Nodup.map_on (fun d hd e he heq => hitem d hd e he ?_) hitems.of_map
    rw [(hspec d hd).1, (hspec e he).1] at heq
    exact inj_of_undisturbed h Item.key (fun _ => rfl) (fun _ _ => rfl)
      (fun _ _ _ _ heq => (List.cons.inj heq).1) (fun _ _ _ hapart => hapart.2) _
      (List.mem_map_of_mem hd) _ (List.mem_map_of_mem he) heq
  case dests =>
    refine List.Nodup.map_on (fun d hd e he heq => hitem d hd e he ?_) hitems.of_map
    rw [(hspec d hd).2, (hspec e he).2] at heq
    exact inj_of_undisturbed h Item.dest (fun _ => rfl) (fun _ _ => rfl)
      (fun _ _ _ _ heq => (List.cons.inj (List.append_inj' heq rfl).2).1)
      (fun _ _ _ hapart => hapart.1) _
      (List.mem_map_of_mem hd) _ (List.mem_map_of_mem he) heq
  case dest =>
    intro d hd
    obtain ⟨hdir, hneeded⟩ := h.folders d.item (List.mem_map_of_mem hd)
    rw [folders_movesOf, (hspec d hd).2, IsFolder, isDir_before, hdir]
    rintro (hfalse | ⟨q, hq, hpq⟩)
    · cases hfalse
    · exact hneeded q hq hpq
  case folder =>
    intro q hq p hp
    rw [isFile_before]
    exact h.files q (by rwa [folders_movesOf] at hq) p hp

/-- Where the merge is undisturbed everything is put at its path. -/
theorem place_of_undisturbed (h : Undisturbed fmt t₀ workerOutputs workerWeights) :
    ∀ d ∈ deposits (movesOf fmt t₀ workerOutputs workerWeights), d.place = d.dest := by
  intro d hd
  obtain ⟨files, hg⟩ := exists_group_of_mem (List.mem_map_of_mem hd)
  generalize hname : d.item.name = n at hg
  rcases moves_cases hg with ⟨c, -, honly⟩ | ⟨isDir, hfolder, hcopies⟩
  · obtain rfl := (honly d).mp ⟨hd, hname⟩
    exact h.saved n (List.mem_map_of_mem hd)
  · have hdest := (clear_of_undisturbed h).dest d hd
    rw [folders_movesOf] at hdest
    obtain ⟨f, -, rfl⟩ := (hcopies d).mp ⟨hd, hname⟩
    exact if_neg fun hdir => hdest (hfolder _ hdir)

/-- **An undisturbed merge keeps what is asked of it.** -/
theorem laws_of_undisturbed (h : Undisturbed fmt t₀ workerOutputs workerWeights) :
    ∃ s, mergeWorkerMlOutputs fmt t₀ workerOutputs workerWeights = some s ∧
      MergeLaws fmt workerOutputs workerWeights s := by
  obtain ⟨s, hrun, hplaced⟩ := placed_of_clear (untouched_before t₀) (clear_of_undisturbed h)
    (place_of_undisturbed h)
  have hmerge := (merge_eq_run fmt t₀ workerOutputs workerWeights).mpr hrun
  have hran := ran_of_merge hmerge
  refine ⟨s, hmerge, ?_⟩
  constructor
  case weighted =>
    intro n c hc hinto
    have hplan := mem_plan_of_tree hran hinto.2
    by_cases hkind : n.kind = .features
    · obtain ⟨data, rfl⟩ := combine_eq_concatenate hkind hc
      exact Or.inl (Nat.zero_le 1)
    · rw [shares_inProportion hc hkind (h.dictionaries n hplan)]
      exact h.weights n hplan hkind
  case own =>
    intro wid n data hfile
    obtain ⟨files, hg, hf⟩ := exists_group_of_hasFile hfile
    rcases moves_cases hg with ⟨c, hc, honly⟩ | ⟨isDir, -, hcopies⟩
    · obtain ⟨hd, -⟩ := (honly _).mpr rfl
      have hplan : .merged n ∈ plan fmt t₀ workerOutputs workerWeights := List.mem_map_of_mem hd
      refine Or.inl ⟨c, hc, ⟨hplaced.listed _ hd, hplaced.stored _ hd⟩, ?_⟩
      rw [workers_of_combine hc (h.dictionaries n hplan)]
      exact List.mem_map_of_mem (mem_filesNamed.mpr hfile)
    · obtain ⟨hd, -⟩ := (hcopies _).mpr ⟨(wid, data), hf, rfl⟩
      refine Or.inr ⟨_, Dict.mem_values.mpr ⟨_, hplaced.listed _ hd⟩, _, ?_, hplaced.stored _ hd⟩
      exact isCopy_copyItem n files.entries wid
  case distinct =>
    rintro wid n data wid' n' data' p ⟨-, i, hcopy, hp⟩ ⟨-, i', hcopy', hp'⟩
    rw [hp] at hp'
    cases hp'
    exact hcopy.inj hcopy'
  case apart =>
    rintro wid n data p n' c ⟨-, i, hcopy, hp⟩ ⟨-, hp'⟩ rfl
    rw [hp] at hp'
    cases hp'
    exact not_isCopy_merged hcopy

theorem undisturbed_of_merge
    (h : ∃ s, mergeWorkerMlOutputs fmt t₀ workerOutputs workerWeights = some s ∧
      MergeLaws fmt workerOutputs workerWeights s) :
    Undisturbed fmt t₀ workerOutputs workerWeights := by
  obtain ⟨s, hmerge, hlaws⟩ := h
  exact undisturbed_of_laws (ran_of_merge hmerge) hlaws

end Merge

/-- The bytes of a text of ASCII characters. -/
def asciiBytes (text : String) : Bytes := text.toList.map fun c => UInt8.ofNat c.toNat

/-- `{"b": 1}` and `{"b": 5}` are loaded, `{"b": 4}` is saved. -/
def sampleFormats : Formats Unit Unit Unit Unit where
  torchLoad _ := none
  torchSave _ := none
  castTotal _ _ := none
  npzLoad _ := none
  npzSave _ := none
  safetensorsLoad _ := none
  safetensorsSave _ := none
  asFloat64 _ := none
  jsonLoad data :=
    if data = asciiBytes "\x7b\"b\": 1\x7d" then
      some (.dict (.leaf "b" (.item (.number 1)) .nil))
    else if data = asciiBytes "\x7b\"b\": 5\x7d" then
      some (.dict (.leaf "b" (.item (.number 5)) .nil))
    else none
  jsonDump
    | .dict (.leaf "b" (.item (.number 4)) .nil) => some (asciiBytes "\x7b\n  \"b\": 4.0\n\x7d")
    | _ => none
  jsonReading := ⟨fun _ => none, fun _ => none⟩
  npyLoad _ := none
  concatenate _ := none
  npySave _ := none

/-- `params.json` -/
def paramsName : RelName := ⟨[], "params.json", by decide, by decide, by decide, by decide⟩

/-- `slice.wav` -/
def sliceName : RelName := ⟨[], "slice.wav", by decide, by decide, by decide, by decide⟩

/-- `slice_a.wav` -/
def sliceAName : RelName := ⟨[], "slice_a.wav", by decide, by decide, by decide, by decide⟩

/-- The output of the first worker is missing, and those of the others are checkpoints. -/
def lateOutputs : WorkerOutputs :=
  .list [.missing, .directory (.ofList [(paramsName, asciiBytes "\x7b\"b\": 1\x7d")]),
    .directory (.ofList [(paramsName, asciiBytes "\x7b\"b\": 5\x7d")])]

def workerA : WorkerId := ⟨"a", by decide⟩

def workerB : WorkerId := ⟨"b", by decide⟩

/-- Two workers have a slice of one name, and one has a slice named like the other's. -/
def sliceOutputs : WorkerOutputs :=
  .mapping (.ofList [(workerA, .directory (.ofList [(sliceName, [1])])),
    (workerB, .directory (.ofList [(sliceName, [2]), (sliceAName, [3])]))])

end Aidars.Training
