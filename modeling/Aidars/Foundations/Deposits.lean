import Aidars.Foundations.Collections
import Aidars.Foundations.FileTree
import Aidars.Foundations.Run
import Mathlib.Data.List.Perm.Subperm

/-!
# Files that are put into a tree

Files are put into a tree of directories one after the other, each at its place, and listed in a
dictionary under a key with the path it is said to be at. Directories are made on the way. A file
that is put somewhere notes what it is (`origin`), so that later it can be told whether it is still
there.

`ran_of_run` says what a tree and a list are like after any moves. `placed_of_clear` is the rule for
moves that do not disturb each other: keys and paths are different, and no path is that of a
directory. `clear_of_placed` is the converse. Where each of the files is at some listed path in the
end, there are as many keys and as many listed paths as files, so no two share one and each of the
paths is a file's.
-/

namespace Aidars

/-- A file in a tree: what it is, if it was put there, and its data. -/
structure Stored (ι β : Type*) where
  origin : Option ι
  data : β
  deriving DecidableEq

/-- A file that is put at a place, and listed under a key as if at a path. -/
structure Deposit (ι κ ν β : Type*) where
  item : ι
  key : κ
  dest : List ν
  place : List ν
  data : β

/-- What happens to a tree: a directory is made, or a file is put somewhere. -/
inductive Move (ι κ ν β : Type*)
  | folder (p : List ν)
  | deposit (d : Deposit ι κ ν β)

/-- A tree, and where the files put into it are said to be. -/
structure Filed (ι κ ν β : Type*) where
  tree : FileTree ν (Stored ι β)
  listed : Dict κ (List ν)

namespace Filed

variable {ι κ ν β : Type*} [DecidableEq κ] [DecidableEq ν]

/-- Make a directory. -/
def makeFolder (s : Filed ι κ ν β) (p : List ν) : Option (Filed ι κ ν β) :=
  (s.tree.makeDirs p).map fun tree => { s with tree }

/-- Put a file somewhere, and list it. -/
def deposit (s : Filed ι κ ν β) (d : Deposit ι κ ν β) : Option (Filed ι κ ν β) :=
  (s.tree.writeFile d.place ⟨some d.item, d.data⟩).map fun tree =>
    { tree, listed := s.listed.set d.key d.dest }

/-- One move. -/
def move (s : Filed ι κ ν β) : Move ι κ ν β → Option (Filed ι κ ν β)
  | .folder p => s.makeFolder p
  | .deposit d => s.deposit d

/-- The directories that moves make. -/
def folders (ms : List (Move ι κ ν β)) : List (List ν) :=
  ms.filterMap fun
    | .folder p => some p
    | .deposit _ => none

/-- The files that moves put somewhere. -/
def deposits (ms : List (Move ι κ ν β)) : List (Deposit ι κ ν β) :=
  ms.filterMap fun
    | .folder _ => none
    | .deposit d => some d

/-- There is a directory, from the beginning or on the way to one that was made. -/
def IsFolder (t₀ : FileTree ν (Stored ι β)) (made : List (List ν)) (p : List ν) : Prop :=
  t₀.isDir p ∨ ∃ q ∈ made, p <+: q

instance (t₀ : FileTree ν (Stored ι β)) (made : List (List ν)) (p : List ν) :
    Decidable (IsFolder t₀ made p) :=
  inferInstanceAs (Decidable (_ ∨ _))

/-- Nothing in a tree was put there. -/
def Untouched (t₀ : FileTree ν (Stored ι β)) : Prop :=
  ∀ p f, t₀ p = some (.file f) → f.origin = none

variable {t₀ : FileTree ν (Stored ι β)} {ms : List (Move ι κ ν β)} {s s' : Filed ι κ ν β}
  {p : List ν} {d : Deposit ι κ ν β}

omit [DecidableEq κ] [DecidableEq ν] in
@[simp] theorem folders_append (ms ms' : List (Move ι κ ν β)) :
    folders (ms ++ ms') = folders ms ++ folders ms' :=
  List.filterMap_append

omit [DecidableEq κ] [DecidableEq ν] in
@[simp] theorem deposits_append (ms ms' : List (Move ι κ ν β)) :
    deposits (ms ++ ms') = deposits ms ++ deposits ms' :=
  List.filterMap_append

omit [DecidableEq κ] [DecidableEq ν] in
@[simp] theorem folders_folder (p : List ν) : folders [(.folder p : Move ι κ ν β)] = [p] := rfl

omit [DecidableEq κ] [DecidableEq ν] in
@[simp] theorem folders_deposit (d : Deposit ι κ ν β) : folders [.deposit d] = [] := rfl

omit [DecidableEq κ] [DecidableEq ν] in
@[simp] theorem deposits_folder (p : List ν) :
    deposits [(.folder p : Move ι κ ν β)] = [] := rfl

omit [DecidableEq κ] [DecidableEq ν] in
@[simp] theorem deposits_deposit (d : Deposit ι κ ν β) : deposits [.deposit d] = [d] := rfl

omit [DecidableEq κ] [DecidableEq ν] in
theorem IsFolder.append {made : List (List ν)} (h : IsFolder t₀ made p) (made' : List (List ν)) :
    IsFolder t₀ (made ++ made') p := by
  rcases h with h | ⟨q, hq, hpq⟩
  · exact Or.inl h
  · exact Or.inr ⟨q, List.mem_append_left _ hq, hpq⟩

omit [DecidableEq κ] in
theorem makeFolder_eq_some :
    s.makeFolder p = some s' ↔ ∃ tree, s.tree.makeDirs p = some tree ∧ { s with tree } = s' :=
  Option.map_eq_some_iff

theorem deposit_eq_some : s.deposit d = some s' ↔
    ∃ tree, s.tree.writeFile d.place ⟨some d.item, d.data⟩ = some tree ∧
      { tree, listed := s.listed.set d.key d.dest } = s' :=
  Option.map_eq_some_iff

/-- A file cannot be put where there is a directory. -/
theorem deposit_eq_none : s.deposit d = none ↔ s.tree.isDir d.place := by
  rw [deposit, Option.map_eq_none_iff, FileTree.writeFile]
  split_ifs with h <;> simp [h]

/-- What moves make of a tree and a list. -/
structure Ran (t₀ : FileTree ν (Stored ι β)) (ms : List (Move ι κ ν β)) (s : Filed ι κ ν β) :
    Prop where
  /-- The directories are those of the beginning and those that were made. -/
  isDir : ∀ p, s.tree.isDir p ↔ IsFolder t₀ (folders ms) p
  /-- A file is written over at most. -/
  isFile : ∀ p, t₀.isFile p → s.tree.isFile p
  /-- What was put somewhere is at its place. -/
  origin : ∀ p i x, s.tree p = some (.file ⟨some i, x⟩) →
    ∃ d ∈ deposits ms, d.item = i ∧ d.place = p ∧ d.data = x
  keys : ∀ k ∈ s.listed.keys, ∃ d ∈ deposits ms, d.key = k
  values : ∀ p ∈ s.listed.values, ∃ d ∈ deposits ms, d.dest = p

omit [DecidableEq κ] [DecidableEq ν] in
theorem ran_nil (h : Untouched t₀) : Ran t₀ ([] : List (Move ι κ ν β)) ⟨t₀, ∅⟩ where
  isDir p := by simp [IsFolder, folders]
  isFile _ hp := hp
  origin p i x hp := by
    have hnone := h p _ hp
    simp at hnone
  keys k hk := by cases hk
  values p hp := by cases hp

omit [DecidableEq κ] in
/-- What a made directory changes. -/
theorem Ran.makeFolder (hran : Ran t₀ ms s) (h : s.makeFolder p = some s') :
    Ran t₀ (ms ++ [.folder p]) s' := by
  obtain ⟨tree, hmake, rfl⟩ := makeFolder_eq_some.mp h
  have hdir := FileTree.isDir_makeDirs hmake
  obtain ⟨-, rfl⟩ := FileTree.makeDirs_eq_some.mp hmake
  constructor
  case isDir =>
    intro q
    rw [hdir, hran.isDir]
    simp only [IsFolder, folders_append, folders_folder, List.mem_append, List.mem_singleton,
      or_and_right, exists_or, exists_eq_left, or_assoc]
  case isFile =>
    intro q hq
    obtain ⟨data, hdata⟩ := FileTree.isFile_iff.mp (hran.isFile q hq)
    exact FileTree.isFile_iff.mpr ⟨data, FileTree.mkdirs_eq_file.mpr hdata⟩
  case origin =>
    intro q i x hq
    simpa using hran.origin q i x (FileTree.mkdirs_eq_file.mp hq)
  case keys => simpa using hran.keys
  case values => simpa using hran.values

theorem Ran.deposit (hran : Ran t₀ ms s) (h : s.deposit d = some s') :
    Ran t₀ (ms ++ [.deposit d]) s' := by
  obtain ⟨tree, hwrite, rfl⟩ := deposit_eq_some.mp h
  have hdir := FileTree.isDir_writeFile hwrite
  obtain ⟨-, rfl⟩ := FileTree.writeFile_eq_some.mp hwrite
  constructor
  case isDir =>
    intro q
    rw [hdir, hran.isDir]
    simp
  case isFile =>
    intro q hq
    obtain ⟨data, hdata⟩ := FileTree.isFile_iff.mp (hran.isFile q hq)
    rw [FileTree.isFile_iff]
    by_cases hplace : q = d.place
    · exact ⟨_, FileTree.put_file_eq_file.mpr (Or.inl ⟨hplace, rfl⟩)⟩
    · exact ⟨data, FileTree.put_file_eq_file.mpr (Or.inr ⟨hplace, hdata⟩)⟩
  case origin =>
    intro q i x hq
    rcases FileTree.put_file_eq_file.mp hq with ⟨rfl, heq⟩ | ⟨-, hq⟩
    · obtain ⟨hi, rfl⟩ := Stored.mk.inj heq
      exact ⟨d, by simp, Option.some.inj hi, rfl, rfl⟩
    · obtain ⟨e, he, hspec⟩ := hran.origin q i x hq
      exact ⟨e, by simp [he], hspec⟩
  case keys =>
    intro k hk
    obtain ⟨q, hq⟩ := Dict.mem_keys.mp hk
    rw [Dict.get?_set] at hq
    split_ifs at hq with hkey
    · exact ⟨d, by simp, hkey.symm⟩
    · obtain ⟨e, he, hspec⟩ := hran.keys k (Dict.mem_keys.mpr ⟨q, hq⟩)
      exact ⟨e, by simp [he], hspec⟩
  case values =>
    intro q hq
    obtain ⟨k, hk⟩ := Dict.mem_values.mp hq
    rw [Dict.get?_set] at hk
    split_ifs at hk with hkey
    · exact ⟨d, by simp, Option.some.inj hk⟩
    · obtain ⟨e, he, hspec⟩ := hran.values q (Dict.mem_values.mpr ⟨k, hk⟩)
      exact ⟨e, by simp [he], hspec⟩

/-- **What any moves make of a tree.** -/
theorem ran_of_run (h₀ : Untouched t₀) (h : runFrom move ⟨t₀, ∅⟩ ms = some s) : Ran t₀ ms s := by
  induction ms using List.reverseRecOn generalizing s with
  | nil =>
    obtain rfl := Option.some.inj h
    exact ran_nil h₀
  | append_singleton ms m ih =>
    obtain ⟨s₁, h₁, h₂⟩ := runFrom_append.mp h
    obtain ⟨s₂, hmove, hs⟩ := runFrom_cons.mp h₂
    obtain rfl := Option.some.inj hs
    cases m with
    | folder p => exact (ih h₁).makeFolder hmove
    | deposit d => exact (ih h₁).deposit hmove

/-- The moves do not disturb each other. -/
structure Clear (t₀ : FileTree ν (Stored ι β)) (ms : List (Move ι κ ν β)) : Prop where
  keys : ((deposits ms).map Deposit.key).Nodup
  dests : ((deposits ms).map Deposit.dest).Nodup
  /-- No file is put where there is a directory, or where one will be. -/
  dest : ∀ d ∈ deposits ms, ¬ IsFolder t₀ (folders ms) d.dest
  /-- No directory is made where there is a file. -/
  folder : ∀ q ∈ folders ms, ∀ p, p <+: q → t₀.isFile p = false

/-! ## Moves that do not disturb each other -/

omit [DecidableEq κ] [DecidableEq ν] in
theorem Clear.init {m : Move ι κ ν β} (h : Clear t₀ (ms ++ [m])) : Clear t₀ ms where
  keys := by
    have hkeys := h.keys
    rw [deposits_append, List.map_append] at hkeys
    exact hkeys.of_append_left
  dests := by
    have hdests := h.dests
    rw [deposits_append, List.map_append] at hdests
    exact hdests.of_append_left
  dest d hd hfolder := by
    refine h.dest d (by simp [hd]) ?_
    rw [folders_append]
    exact hfolder.append _
  folder q hq := h.folder q (by simp [hq])

/-- Each file is at its path and listed there, and there are no files but these and the former. -/
structure Placed (t₀ : FileTree ν (Stored ι β)) (ms : List (Move ι κ ν β)) (s : Filed ι κ ν β) :
    Prop where
  listed : ∀ d ∈ deposits ms, s.listed.get? d.key = some d.dest
  stored : ∀ d ∈ deposits ms, s.tree d.dest = some (.file ⟨some d.item, d.data⟩)
  files : ∀ p, s.tree.isFile p → t₀.isFile p ∨ ∃ d ∈ deposits ms, d.dest = p

/-- A directory can be made where the moves do not disturb each other. -/
theorem Placed.makeFolder (hplaced : Placed t₀ ms s) (hclear : Clear t₀ (ms ++ [.folder p])) :
    ∃ s', s.makeFolder p = some s' ∧ Placed t₀ (ms ++ [.folder p]) s' := by
  have hfree : ∀ q, q <+: p → s.tree.isFile q = false := by
    intro q hq
    by_contra hfile
    rcases hplaced.files q (by simpa using hfile) with hold | ⟨d, hd, rfl⟩
    · have hnone := hclear.folder p (by simp) q hq
      rw [hold] at hnone
      cases hnone
    · exact hclear.dest d (by simp [hd]) (Or.inr ⟨p, by simp, hq⟩)
  refine ⟨{ s with tree := s.tree.mkdirs p },
    makeFolder_eq_some.mpr ⟨_, FileTree.makeDirs_eq_some.mpr ⟨hfree, rfl⟩, rfl⟩, ?_⟩
  constructor
  case listed => simpa using hplaced.listed
  case stored =>
    intro d hd
    exact FileTree.mkdirs_eq_file.mpr (hplaced.stored d (by simpa using hd))
  case files =>
    intro q hq
    obtain ⟨data, hdata⟩ := FileTree.isFile_iff.mp hq
    have hq' := FileTree.isFile_iff.mpr ⟨data, FileTree.mkdirs_eq_file.mp hdata⟩
    simpa using hplaced.files q hq'

/-- A file can be put at its path where the moves do not disturb each other. -/
theorem Placed.deposit (hran : Ran t₀ ms s) (hplaced : Placed t₀ ms s)
    (hclear : Clear t₀ (ms ++ [.deposit d])) (hplace : d.place = d.dest) :
    ∃ s', s.deposit d = some s' ∧ Placed t₀ (ms ++ [.deposit d]) s' := by
  have hdir : s.tree.isDir d.place = false := by
    by_contra hdir
    have hfolder := (hran.isDir d.place).mp (by simpa using hdir)
    refine hclear.dest d (by simp) ?_
    rw [folders_append, ← hplace]
    exact hfolder.append _
  have hkeys : ∀ e ∈ deposits ms, e.key ≠ d.key := by
    have hnodup := hclear.keys
    rw [deposits_append, List.map_append, List.nodup_append] at hnodup
    intro e he
    exact hnodup.2.2 e.key (List.mem_map_of_mem he) d.key (by simp)
  have hdests : ∀ e ∈ deposits ms, e.dest ≠ d.dest := by
    have hnodup := hclear.dests
    rw [deposits_append, List.map_append, List.nodup_append] at hnodup
    intro e he
    exact hnodup.2.2 e.dest (List.mem_map_of_mem he) d.dest (by simp)
  refine ⟨_, deposit_eq_some.mpr ⟨_, FileTree.writeFile_eq_some.mpr ⟨hdir, rfl⟩, rfl⟩, ?_⟩
  constructor
  case listed =>
    intro e he
    rw [deposits_append, List.mem_append] at he
    rw [Dict.get?_set]
    rcases he with he | he
    · rw [if_neg (hkeys e he), hplaced.listed e he]
    · rw [List.mem_singleton.mp he, if_pos rfl]
  case stored =>
    intro e he
    rw [deposits_append, List.mem_append] at he
    rw [FileTree.put_file_eq_file, hplace]
    rcases he with he | he
    · exact Or.inr ⟨hdests e he, hplaced.stored e he⟩
    · rw [List.mem_singleton.mp he]
      exact Or.inl ⟨rfl, rfl⟩
  case files =>
    intro q hq
    obtain ⟨data, hdata⟩ := FileTree.isFile_iff.mp hq
    rcases FileTree.put_file_eq_file.mp hdata with ⟨rfl, -⟩ | ⟨-, hdata⟩
    · exact Or.inr ⟨d, by simp, hplace.symm⟩
    · rcases hplaced.files q (FileTree.isFile_iff.mpr ⟨data, hdata⟩) with hold | ⟨e, he, rfl⟩
      · exact Or.inl hold
      · exact Or.inr ⟨e, by simp [he], rfl⟩

/-- **Moves that do not disturb each other leave each file at its path, and listed there.** -/
theorem placed_of_clear (h₀ : Untouched t₀) (hclear : Clear t₀ ms)
    (hplace : ∀ d ∈ deposits ms, d.place = d.dest) :
    ∃ s, runFrom move ⟨t₀, ∅⟩ ms = some s ∧ Placed t₀ ms s := by
  induction ms using List.reverseRecOn with
  | nil =>
    refine ⟨⟨t₀, ∅⟩, rfl, ?_⟩
    constructor
    · simp [deposits]
    · simp [deposits]
    · exact fun p hp => Or.inl hp
  | append_singleton ms m ih =>
    obtain ⟨s, hrun, hplaced⟩ := ih hclear.init fun d hd => hplace d (by simp [hd])
    have hstep : ∃ s', s.move m = some s' ∧ Placed t₀ (ms ++ [m]) s' := by
      cases m with
      | folder p => exact hplaced.makeFolder hclear
      | deposit d => exact hplaced.deposit (ran_of_run h₀ hrun) hclear (hplace d (by simp))
    obtain ⟨s', hmove, hplaced'⟩ := hstep
    exact ⟨s', runFrom_append.mpr ⟨s, hrun, runFrom_cons.mpr ⟨s', hmove, rfl⟩⟩, hplaced'⟩

/-! ## Moves after which each file is somewhere -/

omit [DecidableEq κ] [DecidableEq ν] in
theorem nodup_of_placed (hran : Ran t₀ ms s) (hitems : ((deposits ms).map Deposit.item).Nodup)
    (h : ∀ d ∈ deposits ms, ∃ p ∈ s.listed.values, s.tree p = some (.file ⟨some d.item, d.data⟩)) :
    ((deposits ms).map Deposit.key).Nodup ∧ ((deposits ms).map Deposit.dest).Nodup ∧
      ∀ d ∈ deposits ms, ∃ e ∈ deposits ms, s.tree d.dest = some (.file ⟨some e.item, e.data⟩) := by
  choose! f hlisted hfile using h
  -- A path holds one file, so different files are at different paths.
  have hinj : ∀ d ∈ deposits ms, ∀ e ∈ deposits ms, f d = f e → d = e := by
    intro d hd e he heq
    have hsame := hfile d hd
    rw [heq, hfile e he] at hsame
    refine List.inj_on_of_nodup_map hitems hd he ?_
    injection hsame with hsame
    injection hsame with hsame
    injection hsame with hitem
    exact (Option.some.inj hitem).symm
  have hplaces : ((deposits ms).map f).Nodup := List.Nodup.map_on hinj hitems.of_map
  have hsub : (deposits ms).map f ⊆ s.listed.values := by
    intro p hp
    obtain ⟨d, hd, rfl⟩ := List.mem_map.mp hp
    exact hlisted d hd
  have hcount : (deposits ms).length ≤ s.listed.keys.length := by
    have hle := (hplaces.subperm hsub).length_le
    rwa [List.length_map, Dict.values, List.length_map, ← List.length_map (f := Prod.fst)] at hle
  have hkeys : s.listed.keys.Perm ((deposits ms).map Deposit.key) := by
    have hle : ((deposits ms).map Deposit.key).length ≤ s.listed.keys.length := by
      rwa [List.length_map]
    refine (s.listed.nodup.subperm fun k hk => ?_).perm_of_length_le hle
    obtain ⟨d, hd, rfl⟩ := hran.keys k hk
    exact List.mem_map_of_mem hd
  have hdests : ((deposits ms).map f).Perm ((deposits ms).map Deposit.dest) := by
    refine (hplaces.subperm fun p hp => ?_).perm_of_length_le (by simp)
    obtain ⟨d, hd, rfl⟩ := hran.values p (hsub hp)
    exact List.mem_map_of_mem hd
  refine ⟨hkeys.nodup_iff.mp s.listed.nodup, hdests.nodup_iff.mp hplaces, fun d hd => ?_⟩
  obtain ⟨e, he, heq⟩ := List.mem_map.mp (hdests.mem_iff.mpr (List.mem_map_of_mem hd))
  exact ⟨e, he, heq ▸ hfile e he⟩

omit [DecidableEq κ] [DecidableEq ν] in
/-- **Where each file is somewhere in the end, the moves did not disturb each other.** -/
theorem clear_of_placed (hran : Ran t₀ ms s) (hitems : ((deposits ms).map Deposit.item).Nodup)
    (h : ∀ d ∈ deposits ms, ∃ p ∈ s.listed.values, s.tree p = some (.file ⟨some d.item, d.data⟩)) :
    Clear t₀ ms := by
  obtain ⟨hkeys, hdests, hfiles⟩ := nodup_of_placed hran hitems h
  refine ⟨hkeys, hdests, ?_, ?_⟩
  · intro d hd hfolder
    obtain ⟨e, -, hfile⟩ := hfiles d hd
    have hdir := FileTree.isDir_iff.mp ((hran.isDir d.dest).mpr hfolder)
    rw [hfile] at hdir
    cases hdir
  · intro q hq p hp
    by_contra hold
    obtain ⟨data, hfile⟩ := FileTree.isFile_iff.mp (hran.isFile p (by simpa using hold))
    have hdir := FileTree.isDir_iff.mp ((hran.isDir p).mpr (Or.inr ⟨q, hq, hp⟩))
    rw [hfile] at hdir
    cases hdir

end Filed

end Aidars
