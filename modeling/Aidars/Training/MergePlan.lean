import Aidars.Training.MergeRun

/-!
# What the merger puts where

The script of the merger is gone through name by name. For each name there is the merged file, or
there are copies of all its files, and nothing else has the name (`group_cases`). So what is put
into the directory is told apart by what it is (`nodup_items`).
-/

namespace Aidars.Training

open Filed

/-! ## Copies -/

/-- A copy of a file of a worker. -/
def Item.IsCopy (i : Item) (n : RelName) (wid : WorkerId) : Prop :=
  i = .alone n wid ∨ i = .shared n wid

/-- What a copy of a file is put as. -/
def copyItem (n : RelName) (files : List (WorkerId × Bytes)) (wid : WorkerId) : Item :=
  if files.length = 1 then .alone n wid else .shared n wid

theorem copyItems_eq (n : RelName) (files : List (WorkerId × Bytes)) :
    copyItems n files = files.map fun f => (copyItem n files f.1, f.2) := by
  match files with
  | [] => rfl
  | [f] => rfl
  | f :: f' :: files => simp [copyItems, copyItem]

theorem isCopy_copyItem (n : RelName) (files : List (WorkerId × Bytes)) (wid : WorkerId) :
    (copyItem n files wid).IsCopy n wid := by
  rw [copyItem]
  split_ifs
  · exact Or.inl rfl
  · exact Or.inr rfl

theorem Item.IsCopy.inj {i : Item} {n n' : RelName} {wid wid' : WorkerId} (h : i.IsCopy n wid)
    (h' : i.IsCopy n' wid') : wid = wid' ∧ n = n' := by
  rcases h with rfl | rfl <;> rcases h' with h' | h' <;> cases h' <;> exact ⟨rfl, rfl⟩

theorem Item.IsCopy.name {i : Item} {n : RelName} {wid : WorkerId} (h : i.IsCopy n wid) :
    i.name = n := by
  rcases h with rfl | rfl <;> rfl

/-! ## The deposits for a name -/

variable {comb : RelName → Dict WorkerId Bytes → Option Merged} {isDir : Path → Bool}
  {g : RelName × Dict WorkerId Bytes} {d : Deposit Item Path PathName Bytes}

/-- A copy is put somewhere as what it is. -/
theorem mem_copies : d ∈ (copyItems g.1 g.2.entries).map (copyDeposit isDir) ↔
    ∃ f ∈ g.2.entries, copyDeposit isDir (copyItem g.1 g.2.entries f.1, f.2) = d := by
  rw [copyItems_eq, List.map_map, List.mem_map]
  rfl

theorem groupDeposits_cases (comb : RelName → Dict WorkerId Bytes → Option Merged)
    (isDir : Path → Bool) (g : RelName × Dict WorkerId Bytes) :
    (∃ c, comb g.1 g.2 = some c ∧ groupDeposits comb isDir g = [mergedDeposit g.1 c]) ∨
      groupDeposits comb isDir g = (copyItems g.1 g.2.entries).map (copyDeposit isDir) := by
  cases hcomb : comb g.1 g.2 with
  | none =>
    right
    exact groupDeposits_eq_copies fun c hc => absurd (hcomb.symm.trans hc) (by simp)
  | some c =>
    cases hdir : isDir g.1.savePath with
    | true => exact Or.inr (groupDeposits_eq_copies fun _ _ => hdir)
    | false => exact Or.inl ⟨c, rfl, groupDeposits_eq_merged hcomb hdir⟩

theorem item_of_mem (h : d ∈ groupDeposits comb isDir g) :
    d.item.name = g.1 ∧ d.key = d.item.key ∧ d.dest = d.item.dest := by
  rcases groupDeposits_cases comb isDir g with ⟨c, -, hpart⟩ | hpart
  · rw [hpart, List.mem_singleton] at h
    subst h
    exact ⟨rfl, rfl, rfl⟩
  · rw [hpart] at h
    obtain ⟨f, -, rfl⟩ := mem_copies.mp h
    exact ⟨(isCopy_copyItem _ _ _).name, rfl, rfl⟩

theorem nodup_groupDeposits (comb : RelName → Dict WorkerId Bytes → Option Merged)
    (isDir : Path → Bool) (g : RelName × Dict WorkerId Bytes) :
    ((groupDeposits comb isDir g).map Deposit.item).Nodup := by
  rcases groupDeposits_cases comb isDir g with ⟨c, -, hpart⟩ | hpart
  · rw [hpart]
    exact List.nodup_singleton _
  · have hitems : ((copyItems g.1 g.2.entries).map (copyDeposit isDir)).map Deposit.item =
        g.2.keys.map (copyItem g.1 g.2.entries) := by
      rw [copyItems_eq, List.map_map, List.map_map, Dict.keys, List.map_map]
      rfl
    rw [hpart, hitems]
    refine List.Nodup.map (fun wid wid' heq => ?_) g.2.nodup
    have hcopy := isCopy_copyItem g.1 g.2.entries wid
    rw [heq] at hcopy
    exact (hcopy.inj (isCopy_copyItem g.1 g.2.entries wid')).1

/-! ## The deposits of a script -/

variable {t₀ : FileTree PathName (Stored Item Bytes)} {made : List Path}
  {groups : List (RelName × Dict WorkerId Bytes)}

theorem deposits_script_cons (comb : RelName → Dict WorkerId Bytes → Option Merged)
    (t₀ : FileTree PathName (Stored Item Bytes)) (made : List Path)
    (g : RelName × Dict WorkerId Bytes) (groups : List (RelName × Dict WorkerId Bytes)) :
    deposits (script comb t₀ made (g :: groups)) =
      groupDeposits comb (fun p => decide (IsFolder t₀ (made ++ [g.1.parent]) p)) g ++
        deposits (script comb t₀ (made ++ [g.1.parent]) groups) := by
  rw [script, deposits_append]
  congr 1
  exact deposits_deposits _

theorem folders_script (comb : RelName → Dict WorkerId Bytes → Option Merged)
    (t₀ : FileTree PathName (Stored Item Bytes)) (made : List Path)
    (groups : List (RelName × Dict WorkerId Bytes)) :
    folders (script comb t₀ made groups) = groups.map fun g => g.1.parent := by
  induction groups generalizing made with
  | nil => rfl
  | cons g groups ih =>
    rw [script, folders_append, folders_cons_folder, folders_deposits, ih, List.map_cons]
    rfl

/-- What is put into the directory is put there for one of the names. -/
theorem exists_group (h : d ∈ deposits (script comb t₀ made groups)) :
    ∃ g ∈ groups, ∃ isDir, d ∈ groupDeposits comb isDir g := by
  induction groups generalizing made with
  | nil => cases h
  | cons g groups ih =>
    rw [deposits_script_cons, List.mem_append] at h
    rcases h with h | h
    · exact ⟨g, List.mem_cons_self, _, h⟩
    · obtain ⟨g', hg', hmem⟩ := ih h
      exact ⟨g', List.mem_cons_of_mem g hg', hmem⟩

theorem name_mem (h : d ∈ deposits (script comb t₀ made groups)) :
    d.item.name ∈ groups.map Prod.fst := by
  obtain ⟨g, hg, isDir, hmem⟩ := exists_group h
  rw [(item_of_mem hmem).1]
  exact List.mem_map_of_mem hg

/-- What is put into the directory is told apart by what it is. -/
theorem nodup_items (hnames : (groups.map Prod.fst).Nodup) :
    ((deposits (script comb t₀ made groups)).map Deposit.item).Nodup := by
  induction groups generalizing made with
  | nil => exact List.nodup_nil
  | cons g groups ih =>
    obtain ⟨hg, hrest⟩ := List.nodup_cons.mp hnames
    rw [deposits_script_cons, List.map_append]
    refine (nodup_groupDeposits _ _ _).append (ih hrest) ?_
    rw [List.disjoint_left]
    intro i hi hi'
    obtain ⟨d, hd, rfl⟩ := List.mem_map.mp hi
    obtain ⟨d', hd', heq⟩ := List.mem_map.mp hi'
    have hname := name_mem hd'
    rw [heq, (item_of_mem hd).1] at hname
    exact hg hname

/-- What is put into the directory for a name, by the directories at that time. -/
theorem exists_isDir (hnames : (groups.map Prod.fst).Nodup) (hg : g ∈ groups) :
    ∃ isDir, (∀ p, isDir p → IsFolder t₀ (made ++ groups.map fun g => g.1.parent) p) ∧
      ∀ d, d ∈ deposits (script comb t₀ made groups) ∧ d.item.name = g.1 ↔
        d ∈ groupDeposits comb isDir g := by
  induction groups generalizing made with
  | nil => cases hg
  | cons g' groups ih =>
    obtain ⟨hg', hrest⟩ := List.nodup_cons.mp hnames
    rw [List.map_cons, deposits_script_cons]
    have hmade : made ++ g'.1.parent :: groups.map (fun g => g.1.parent) =
        made ++ [g'.1.parent] ++ groups.map fun g => g.1.parent := by simp
    rw [hmade]
    rcases List.mem_cons.mp hg with rfl | hmem
    · refine ⟨fun p => decide (IsFolder t₀ (made ++ [g.1.parent]) p),
        fun p hp => IsFolder.append (of_decide_eq_true hp) _, fun d => ?_⟩
      rw [List.mem_append]
      constructor
      · rintro ⟨hd | hd, hname⟩
        · exact hd
        · exact absurd (hname ▸ name_mem hd) hg'
      · exact fun hd => ⟨Or.inl hd, (item_of_mem hd).1⟩
    · obtain ⟨isDir, hfolder, hiff⟩ := ih hrest hmem
      refine ⟨isDir, hfolder, fun d => ?_⟩
      rw [← hiff, List.mem_append]
      constructor
      · rintro ⟨hd | hd, hname⟩
        · have hfst : g.1 ∈ groups.map Prod.fst := List.mem_map_of_mem hmem
          rw [← hname, (item_of_mem hd).1] at hfst
          exact absurd hfst hg'
        · exact ⟨hd, hname⟩
      · exact fun hd => ⟨Or.inr hd.1, hd.2⟩

/-- **What is put into the directory for a name**: the merged file, or copies of all files. -/
theorem group_cases (hnames : (groups.map Prod.fst).Nodup) (hg : g ∈ groups) :
    (∃ c, comb g.1 g.2 = some c ∧ ∀ d, d ∈ deposits (script comb t₀ made groups) ∧
        d.item.name = g.1 ↔ d = mergedDeposit g.1 c) ∨
      ∃ isDir, (∀ p, isDir p → IsFolder t₀ (made ++ groups.map fun g => g.1.parent) p) ∧
        ∀ d, d ∈ deposits (script comb t₀ made groups) ∧ d.item.name = g.1 ↔
          ∃ f ∈ g.2.entries, copyDeposit isDir (copyItem g.1 g.2.entries f.1, f.2) = d := by
  obtain ⟨isDir, hfolder, hiff⟩ := exists_isDir hnames hg
  rcases groupDeposits_cases comb isDir g with ⟨c, hcomb, hpart⟩ | hpart
  · refine Or.inl ⟨c, hcomb, fun d => ?_⟩
    rw [hiff, hpart, List.mem_singleton]
  · refine Or.inr ⟨isDir, hfolder, fun d => ?_⟩
    rw [hiff, hpart, mem_copies]

end Aidars.Training
