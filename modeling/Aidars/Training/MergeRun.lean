import Aidars.Training.MergeFiles

/-!
# Where merged files are put

`mergeWorkerMlOutputs` writes merged files and copies of files into a directory and lists where they
are. The tree of the directory notes which file it has where; the merger does not read that.

Which moves it makes is known beforehand (`script`): a merged file is written unless there is a
directory in its place, and a copy that finds a directory in its place is put into it, so that only
the directories matter, which are those of the beginning and those of the names that were gone
through. `merge_eq_run` says that the merger makes the moves of its script.
-/

namespace Aidars.Training

open Filed

/-! ## The merger -/

/-- What the merger puts into the directory: a merged file, a copy of the only file of its name, or
a copy of one of several. -/
inductive Item
  | merged (n : RelName)
  | alone (n : RelName) (wid : WorkerId)
  | shared (n : RelName) (wid : WorkerId)
  deriving DecidableEq

namespace Item

def name : Item → RelName
  | merged n | alone n _ | shared n _ => n

/-- The key in the results: the name from the directory, or only the new name. -/
def key : Item → Path
  | merged n | alone n _ => n.path
  | shared n wid => [n.distinctName wid]

/-- The path in the results. -/
def dest : Item → Path
  | merged n | alone n _ => n.path
  | shared n wid => n.distinctPath wid

end Item

/-- The directory and the results. -/
abbrev MergeState := Filed Item Path PathName Bytes

/-- A file as the merger finds it in the directory. -/
def before (t₀ : FileTree PathName Bytes) : FileTree PathName (Stored Item Bytes) := fun p =>
  match t₀ p with
  | none => none
  | some .dir => some .dir
  | some (.file data) => some (.file ⟨none, data⟩)

/-- Write a merged file. -/
def mergedDeposit (n : RelName) (c : Merged) : Deposit Item Path PathName Bytes where
  item := .merged n
  key := n.path
  dest := n.path
  place := n.savePath
  data := c.data

/-- `shutil.copy2`: a file that is copied to a directory is put into it under its own name. -/
def copyDeposit (isDir : Path → Bool) (c : Item × Bytes) : Deposit Item Path PathName Bytes where
  item := c.1
  key := c.1.key
  dest := c.1.dest
  place := if isDir c.1.dest then c.1.dest ++ [c.1.name.base] else c.1.dest
  data := c.2

/-- The copies of the files of a name. -/
def copyItems (n : RelName) (files : List (WorkerId × Bytes)) : List (Item × Bytes) :=
  match files with
  | [f] => [(.alone n f.1, f.2)]
  | files => files.map fun f => (.shared n f.1, f.2)

/-- Copy the files of a name. -/
def copyFiles (s : MergeState) (n : RelName) (files : List (WorkerId × Bytes)) :
    Option MergeState :=
  (copyItems n files).foldlM (fun s c => s.deposit (copyDeposit s.tree.isDir c)) s

/-- The files of some workers, in their order. -/
def inOrder (workerKeys : List WorkerId) (wFiles : Dict WorkerId Bytes) : List (WorkerId × Bytes) :=
  workerKeys.filterMap fun wid => (wFiles.get? wid).map (Prod.mk wid)

/-- Merge the files of a name, or copy them if they are not merged or cannot be. -/
def mergeGroup (comb : RelName → Dict WorkerId Bytes → Option Merged) (s : MergeState)
    (g : RelName × Dict WorkerId Bytes) : Option MergeState :=
  (s.makeFolder g.1.parent).bind fun s =>
    match (comb g.1 g.2).bind fun c => s.deposit (mergedDeposit g.1 c) with
    | some s' => some s'
    | none => copyFiles s g.1 g.2.entries

section Merge

variable {τ υ σ α : Type} (fmt : Formats τ υ σ α) (t₀ : FileTree PathName Bytes)
  (workerOutputs : WorkerOutputs) (workerWeights : Option WorkerWeights)

/-- The normalized weight of a worker. -/
def normalizedWeight (wid : WorkerId) : ℚ :=
  ((normalizeWeights workerOutputs.workerKeys workerWeights).get? wid).getD 0

/-- What is made of the files of a name. -/
def combineGroup (n : RelName) (wFiles : Dict WorkerId Bytes) : Option Merged :=
  combine fmt (normalizedWeight workerOutputs workerWeights) n
    (inOrder workerOutputs.workerKeys wFiles)

/-- `merge_worker_ml_outputs`, in a directory with some files in it. -/
def mergeWorkerMlOutputs : Option MergeState :=
  (makeFolder ⟨before t₀, ∅⟩ []).bind fun s =>
    if workerOutputs.workerMap.entries.isEmpty then some s
    else
      (filesByName workerOutputs.workerMap).entries.foldlM
        (mergeGroup (combineGroup fmt workerOutputs workerWeights)) s

end Merge

/-! ## The script of the merger -/

variable (comb : RelName → Dict WorkerId Bytes → Option Merged)

/-- What is put into the directory for the files of a name. -/
def groupDeposits (isDir : Path → Bool) (g : RelName × Dict WorkerId Bytes) :
    List (Deposit Item Path PathName Bytes) :=
  match comb g.1 g.2 with
  | some c =>
    if isDir g.1.savePath then (copyItems g.1 g.2.entries).map (copyDeposit isDir)
    else [mergedDeposit g.1 c]
  | none => (copyItems g.1 g.2.entries).map (copyDeposit isDir)

variable {comb} in
/-- The files of a name are merged if they can be, and there is no directory in the place of the
merged file. -/
theorem groupDeposits_eq_merged {isDir : Path → Bool} {g : RelName × Dict WorkerId Bytes}
    {c : Merged} (hcomb : comb g.1 g.2 = some c) (hdir : isDir g.1.savePath = false) :
    groupDeposits comb isDir g = [mergedDeposit g.1 c] := by
  rw [groupDeposits, hcomb]
  simp [hdir]

variable {comb} in
theorem groupDeposits_eq_copies {isDir : Path → Bool} {g : RelName × Dict WorkerId Bytes}
    (h : ∀ c, comb g.1 g.2 = some c → isDir g.1.savePath = true) :
    groupDeposits comb isDir g = (copyItems g.1 g.2.entries).map (copyDeposit isDir) := by
  rw [groupDeposits]
  cases hcomb : comb g.1 g.2 with
  | none => rfl
  | some c => simp [h c hcomb]

variable (t₀ : FileTree PathName (Stored Item Bytes))

/-- The moves of the merger, where some directories have been made. -/
def script : List Path → List (RelName × Dict WorkerId Bytes) →
    List (Move Item Path PathName Bytes)
  | _, [] => []
  | made, g :: gs =>
    .folder g.1.parent ::
      (groupDeposits comb (fun p => decide (IsFolder t₀ (made ++
        [g.1.parent]) p)) g).map .deposit ++
        script (made ++ [g.1.parent]) gs

variable {comb t₀} {s s' : MergeState} {done : List (Move Item Path PathName Bytes)}

theorem folders_cons_folder (p : Path) (ms : List (Move Item Path PathName Bytes)) :
    folders (.folder p :: ms) = p :: folders ms := rfl

theorem folders_deposits (ds : List (Deposit Item Path PathName Bytes)) :
    folders (ds.map .deposit) = [] := by
  induction ds with
  | nil => rfl
  | cons d ds ih => exact ih

theorem deposits_deposits (ds : List (Deposit Item Path PathName Bytes)) :
    deposits (ds.map .deposit) = ds := by
  induction ds with
  | nil => rfl
  | cons d ds ih => exact congrArg (d :: ·) ih

/-- A run can be continued. -/
theorem run_concat {m : Move Item Path PathName Bytes}
    (hrun : runFrom move ⟨t₀, ∅⟩ done = some s) (hm : s.move m = some s') :
    runFrom move ⟨t₀, ∅⟩ (done ++ [m]) = some s' :=
  runFrom_append.mpr ⟨s, hrun, runFrom_cons.mpr ⟨s', hm, rfl⟩⟩

theorem isDir_eq (h₀ : Untouched t₀) (hrun : runFrom move ⟨t₀, ∅⟩ done = some s) :
    s.tree.isDir = fun p => decide (IsFolder t₀ (folders done) p) := by
  funext p
  rw [Bool.eq_iff_iff, decide_eq_true_iff]
  exact (ran_of_run h₀ hrun).isDir p

theorem copies_eq_run (h₀ : Untouched t₀) (hrun : runFrom move ⟨t₀, ∅⟩ done = some s)
    (cs : List (Item × Bytes)) :
    cs.foldlM (fun s c => s.deposit (copyDeposit s.tree.isDir c)) s =
      runFrom move s ((cs.map (copyDeposit fun p => decide (IsFolder t₀ (folders done) p))).map
        .deposit) := by
  induction cs generalizing s done with
  | nil => rfl
  | cons c cs ih =>
    rw [List.foldlM_cons, isDir_eq h₀ hrun, List.map_cons, List.map_cons, runFrom]
    cases hdeposit : s.deposit (copyDeposit (fun p => decide (IsFolder t₀ (folders done) p)) c) with
    | none =>
      rw [move, hdeposit]
      rfl
    | some s₁ =>
      have hrun₁ := run_concat (m := .deposit _) hrun hdeposit
      have hsame := ih hrun₁
      rw [folders_append, folders_deposit, List.append_nil] at hsame
      rw [move, hdeposit]
      exact hsame

theorem mergeGroup_eq_run (h₀ : Untouched t₀) (hrun : runFrom move ⟨t₀, ∅⟩ done = some s)
    (g : RelName × Dict WorkerId Bytes) :
    mergeGroup comb s g = runFrom move s (.folder g.1.parent ::
      (groupDeposits comb (fun p => decide (IsFolder t₀ (folders done ++ [g.1.parent]) p)) g).map
        .deposit) := by
  rw [mergeGroup, runFrom, move]
  cases hmake : s.makeFolder g.1.parent with
  | none => rfl
  | some s₁ =>
    have hrun₁ := run_concat (m := .folder _) hrun hmake
    have hdirs := isDir_eq h₀ hrun₁
    have hcopies := copies_eq_run h₀ hrun₁ (copyItems g.1 g.2.entries)
    rw [folders_append, folders_folder] at hdirs hcopies
    rw [Option.bind_some, Option.bind_some, copyFiles, hcopies]
    cases hcomb : comb g.1 g.2 with
    | none =>
      rw [groupDeposits_eq_copies fun c hc => absurd (hcomb.symm.trans hc) (by simp)]
      rfl
    | some c =>
      rw [Option.bind_some]
      have hplace : (mergedDeposit g.1 c).place = g.1.savePath := rfl
      cases hdeposit : s₁.deposit (mergedDeposit g.1 c) with
      | none =>
        have hdir := deposit_eq_none.mp hdeposit
        rw [hdirs, hplace] at hdir
        rw [groupDeposits_eq_copies fun _ _ => hdir]
      | some s₂ =>
        have hdir : ¬ s₁.tree.isDir g.1.savePath := by
          rw [← hplace, ← deposit_eq_none, hdeposit]
          simp
        rw [hdirs] at hdir
        have hmove : s₁.move (.deposit (mergedDeposit g.1 c)) = some s₂ := hdeposit
        rw [groupDeposits_eq_merged hcomb (by simpa using hdir), List.map_singleton]
        exact (runFrom_cons.mpr ⟨s₂, hmove, rfl⟩).symm

theorem groups_eq_run (h₀ : Untouched t₀) (hrun : runFrom move ⟨t₀, ∅⟩ done = some s)
    (groups : List (RelName × Dict WorkerId Bytes)) :
    groups.foldlM (mergeGroup comb) s = some s' ↔
      runFrom move s (script comb t₀ (folders done) groups) = some s' := by
  induction groups generalizing s done with
  | nil => rfl
  | cons g groups ih =>
    rw [List.foldlM_cons, script, Option.bind_eq_bind, Option.bind_eq_some_iff,
      runFrom_append, mergeGroup_eq_run h₀ hrun]
    apply exists_congr
    intro s₁
    apply and_congr_right
    intro hgroup
    have hrun₁ := runFrom_append.mpr ⟨s, hrun, hgroup⟩
    rw [ih hrun₁, folders_append, folders_cons_folder, folders_deposits]

theorem untouched_before (t₀ : FileTree PathName Bytes) : Untouched (before t₀) := by
  intro p f hf
  unfold before at hf
  split at hf
  · cases hf
  · cases hf
  · obtain rfl := FileNode.file.inj (Option.some.inj hf)
    rfl

@[simp] theorem isDir_before (t₀ : FileTree PathName Bytes) (p : Path) :
    (before t₀).isDir p = t₀.isDir p := by
  rcases h : t₀ p with - | - | data <;> simp [FileTree.isDir, before, h]

@[simp] theorem isFile_before (t₀ : FileTree PathName Bytes) (p : Path) :
    (before t₀).isFile p = t₀.isFile p := by
  rcases h : t₀ p with - | - | data <;> simp [FileTree.isFile, before, h]

/-- **The merger makes the directory and the moves of its script.** -/
theorem merge_eq_run {τ υ σ α : Type} (fmt : Formats τ υ σ α) (t₀ : FileTree PathName Bytes)
    (workerOutputs : WorkerOutputs) (workerWeights : Option WorkerWeights) :
    mergeWorkerMlOutputs fmt t₀ workerOutputs workerWeights = some s ↔
      runFrom move ⟨before t₀, ∅⟩ (.folder [] ::
        script (combineGroup fmt workerOutputs workerWeights) (before t₀) [[]]
          (filesByName workerOutputs.workerMap).entries) = some s := by
  rw [mergeWorkerMlOutputs, Option.bind_eq_some_iff, runFrom_cons]
  apply exists_congr
  intro s₁
  apply and_congr_right
  intro hmake
  have hrun : runFrom move ⟨before t₀, ∅⟩ ([] ++ [.folder []]) = some s₁ := run_concat rfl hmake
  refine Iff.trans (Eq.to_iff ?_) (groups_eq_run (untouched_before t₀) hrun _)
  split_ifs with hempty
  · rw [filesByName, List.isEmpty_iff.mp hempty]
    rfl
  · rfl

end Aidars.Training
