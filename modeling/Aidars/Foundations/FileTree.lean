import Mathlib.Data.List.Infix
import Mathlib.Logic.Function.Basic
import Mathlib.Tactic.Common

/-!
# Trees of files

A file tree gives the node at each path, if there is one. `below t p` is the tree below a path;
writes, directories made with their parents, removals and renames of whole subtrees are changes of a
tree, each with a lemma saying what is below a path that it does not reach.

`makeDirs` and `writeFile` are the two calls that fail when what is there is of the other kind:
after them `isDir_makeDirs` and `isDir_writeFile` say where the directories are.

A script changes a tree and completes or stops. `Keeps p` says that a script leaves everything below
`p` as it was; scripts in sequence and over a list keep what each of them keeps.
-/

namespace Aidars

/-- The contents of a file. -/
abbrev Bytes := List UInt8

variable {ν β : Type*}

/-- What a path names. -/
inductive FileNode (β : Type*)
  | dir
  | file (data : β)
  deriving DecidableEq

/-- The nodes of a file system, by their paths from its root. -/
abbrev FileTree (ν β : Type*) := List ν → Option (FileNode β)

namespace FileTree

variable {t : FileTree ν β} {p q : List ν} {n : FileNode β}

/-- Neither path leads to the other. -/
def Apart (p q : List ν) : Prop := ¬ p <+: q ∧ ¬ q <+: p

/-- The tree below a path. -/
def below (t : FileTree ν β) (p : List ν) : FileTree ν β := fun q => t (p ++ q)

/-- There is something at a path. -/
def exists? (t : FileTree ν β) (p : List ν) : Bool := (t p).isSome

/-- The path names a file. -/
def isFile (t : FileTree ν β) (p : List ν) : Bool :=
  match t p with
  | some (.file _) => true
  | _ => false

/-- The path names a directory. -/
def isDir (t : FileTree ν β) (p : List ν) : Bool :=
  match t p with
  | some .dir => true
  | _ => false

/-- The bytes of a file. -/
def data? (t : FileTree ν β) (p : List ν) : Option β :=
  match t p with
  | some (.file data) => some data
  | _ => none

instance [DecidableEq ν] (p q : List ν) : Decidable (Apart p q) :=
  inferInstanceAs (Decidable (_ ∧ _))

theorem Apart.symm (h : Apart p q) : Apart q p := ⟨h.2, h.1⟩

/-- What a path leads to is apart from what the path is apart from. -/
theorem Apart.extend {r : List ν} (h : Apart p q) (hr : p <+: r) : Apart r q := by
  refine ⟨fun hrq => h.1 (hr.trans hrq), fun hqr => ?_⟩
  obtain hpq | hqp := List.prefix_or_prefix_of_prefix hr hqr
  · exact h.1 hpq
  · exact h.2 hqp

/-- Different entries of a directory are apart. -/
theorem apart_concat {a b : ν} (hab : a ≠ b) : Apart (p ++ [a]) (p ++ [b]) := by
  constructor
  · intro h
    simp [hab] at h
  · intro h
    simp [Ne.symm hab] at h

/-- An entry of a directory does not lead to the directory. -/
theorem concat_not_leads (p : List ν) (a : ν) : ¬ p ++ [a] <+: p := fun h => by
  have hlen := h.length_le
  rw [List.length_append, List.length_singleton] at hlen
  omega

variable [DecidableEq ν]

/-- The tree with another tree in place of what is below a path. -/
def graft (t : FileTree ν β) (p : List ν) (s : FileTree ν β) : FileTree ν β := fun q =>
  if p <+: q then s (q.drop p.length) else t q

/-- The tree with a node put at a path. -/
def put (t : FileTree ν β) (p : List ν) (n : FileNode β) : FileTree ν β := fun q =>
  if q = p then some n else t q

/-- The tree with a directory and its parents. -/
def mkdirs (t : FileTree ν β) (p : List ν) : FileTree ν β := fun q =>
  if q <+: p ∧ (t q).isNone then some .dir else t q

/-- Make a directory and its parents, unless a file is in the way. -/
def makeDirs (t : FileTree ν β) (p : List ν) : Option (FileTree ν β) :=
  if p.inits.any t.isFile then none else some (t.mkdirs p)

/-- Write a file, unless a directory is in its place. -/
def writeFile (t : FileTree ν β) (p : List ν) (data : β) : Option (FileTree ν β) :=
  if t.isDir p then none else some (t.put p (.file data))

/-- The tree without what is below a path, but for what is kept. -/
def remove (t : FileTree ν β) (p : List ν) (kept : List ν → Bool) : FileTree ν β :=
  t.graft p fun q => if kept q then t (p ++ q) else none

/-- The tree with what is below one path moved to another. -/
def rename (t : FileTree ν β) (p q : List ν) : FileTree ν β :=
  (t.remove p fun _ => false).graft q (t.below p)

@[simp] theorem below_graft (s : FileTree ν β) : (t.graft p s).below p = s := by
  funext r
  simp [below, graft]

/-- A graft is not seen at a path that does not lead through it. -/
theorem graft_apply_of_outside (s : FileTree ν β) (hpq : ¬ p <+: q) : t.graft p s q = t q := by
  simp [graft, hpq]

theorem below_graft_of_apart (s : FileTree ν β) (h : Apart p q) :
    (t.graft p s).below q = t.below q := by
  funext r
  refine graft_apply_of_outside s fun hpr => ?_
  obtain hpq | hqp := List.prefix_or_prefix_of_prefix hpr (List.prefix_append q r)
  · exact h.1 hpq
  · exact h.2 hqp

/-- Putting what is there changes nothing. -/
theorem put_eq_self (h : t p = some n) : t.put p n = t := by
  funext q
  rw [put]
  split_ifs with heq
  · rw [heq, h]
  · rfl

theorem below_put (hqp : ¬ q <+: p) : (t.put p n).below q = t.below q := by
  funext r
  have hr : q ++ r ≠ p := fun h => hqp (h ▸ List.prefix_append q r)
  simp [below, put, hr]

theorem below_mkdirs (hqp : ¬ q <+: p) : (t.mkdirs p).below q = t.below q := by
  funext r
  have hr : ¬ q ++ r <+: p := fun h => hqp ((List.prefix_append q r).trans h)
  simp [below, mkdirs, hr]

/-! ## Calls that fail -/

omit [DecidableEq ν] in
theorem isDir_iff : t.isDir p ↔ t p = some .dir := by
  rcases h : t p with - | - | data <;> simp [isDir, h]

omit [DecidableEq ν] in
theorem isFile_iff : t.isFile p ↔ ∃ data, t p = some (.file data) := by
  rcases h : t p with - | - | data <;> simp [isFile, h]

/-- Directories can be made unless a file is in the way. -/
theorem makeDirs_eq_some {t' : FileTree ν β} :
    t.makeDirs p = some t' ↔ (∀ q, q <+: p → t.isFile q = false) ∧ t' = t.mkdirs p := by
  rw [makeDirs, Option.ite_none_left_eq_some, Option.some.injEq, eq_comm (a := t.mkdirs p)]
  simp

theorem writeFile_eq_some {t' : FileTree ν β} {data : β} :
    t.writeFile p data = some t' ↔ t.isDir p = false ∧ t' = t.put p (.file data) := by
  rw [writeFile, Option.ite_none_left_eq_some, Option.some.injEq, eq_comm (a := t.put _ _)]
  simp

/-- Where the directories are after some are made. -/
theorem isDir_makeDirs {t' : FileTree ν β} (h : t.makeDirs p = some t') (q : List ν) :
    t'.isDir q ↔ t.isDir q ∨ q <+: p := by
  obtain ⟨hfree, rfl⟩ := makeDirs_eq_some.mp h
  rw [isDir_iff, isDir_iff, mkdirs]
  by_cases hq : q <+: p
  · have hfile := hfree q hq
    rcases hnode : t q with - | - | data
    · simp [hq]
    · simp
    · simp [isFile, hnode] at hfile
  · simp [hq]

theorem isDir_writeFile {t' : FileTree ν β} {data : β} (h : t.writeFile p data = some t')
    (q : List ν) : t'.isDir q ↔ t.isDir q := by
  obtain ⟨hfree, rfl⟩ := writeFile_eq_some.mp h
  rw [isDir_iff, isDir_iff, put]
  split_ifs with hq
  · rw [hq, ← isDir_iff, hfree]
    simp
  · exact Iff.rfl

/-- Making directories leaves the files as they are. -/
theorem mkdirs_eq_file {data : β} {q : List ν} :
    t.mkdirs p q = some (.file data) ↔ t q = some (.file data) := by
  rw [mkdirs]
  split_ifs with h
  · have hnone : t q = none := by simpa using h.2
    simp [hnone]
  · exact Iff.rfl

/-- The files after one is written. -/
theorem put_file_eq_file {data data' : β} {q : List ν} :
    t.put p (.file data) q = some (.file data') ↔
      q = p ∧ data = data' ∨ q ≠ p ∧ t q = some (.file data') := by
  rw [put]
  split_ifs with h <;> simp [h]

/-! ## Removals and renames -/

theorem remove_apply_of_outside (kept : List ν → Bool) (hpq : ¬ p <+: q) :
    t.remove p kept q = t q :=
  graft_apply_of_outside _ hpq

theorem below_remove_of_apart (kept : List ν → Bool) (h : Apart p q) :
    (t.remove p kept).below q = t.below q :=
  below_graft_of_apart _ h

@[simp] theorem below_remove : (t.remove p fun _ => false).below p = fun _ => none :=
  below_graft _

theorem remove_apply_self : t.remove p (fun _ => false) p = none := by
  simp [remove, graft]

theorem rename_apply_of_outside {r : List ν} (hpr : ¬ p <+: r) (hqr : ¬ q <+: r) :
    t.rename p q r = t r := by
  rw [rename, graft_apply_of_outside _ hqr, remove_apply_of_outside _ hpr]

@[simp] theorem below_rename : (t.rename p q).below q = t.below p :=
  below_graft _

theorem below_rename_source (h : Apart p q) : (t.rename p q).below p = fun _ => none := by
  rw [rename, below_graft_of_apart _ h.symm, below_remove]

theorem below_rename_of_apart {r : List ν} (hpr : Apart p r) (hqr : Apart q r) :
    (t.rename p q).below r = t.below r := by
  rw [rename, below_graft_of_apart _ hqr, below_remove_of_apart _ hpr]

end FileTree

/-! ## Scripts -/

/-- A change of a tree that completes, or stops on the way. -/
abbrev Script (ν β : Type*) := FileTree ν β → FileTree ν β × Bool

namespace Script

/-- The script that does nothing. -/
def pass : Script ν β := fun t => (t, true)

/-- The script that stops at once. -/
def stop : Script ν β := fun t => (t, false)

/-- One script, and the next if it completes. -/
def andThen (a b : Script ν β) : Script ν β := fun t =>
  if (a t).2 then b (a t).1 else ((a t).1, false)

/-- A script for each value of a list, in order. -/
def forEach {α : Type*} (f : α → Script ν β) : List α → Script ν β
  | [] => pass
  | x :: xs => (f x).andThen (forEach f xs)

/-- The script leaves everything below a path as it was. -/
def Keeps (p : List ν) (a : Script ν β) : Prop := ∀ t, (a t).1.below p = t.below p

variable {p : List ν} {a b : Script ν β}

theorem andThen_eq {t t₁ : FileTree ν β} (h : a t = (t₁, true)) : a.andThen b t = b t₁ := by
  simp [andThen, h]

theorem andThen_eq_of_false {t t₁ : FileTree ν β} (h : a t = (t₁, false)) :
    a.andThen b t = (t₁, false) := by
  simp [andThen, h]

/-- A script that completes ends with its last part. -/
theorem eq_of_andThen_eq {t t₁ : FileTree ν β} (h : a.andThen b t = (t₁, true)) :
    b (a t).1 = (t₁, true) := by
  unfold andThen at h
  split_ifs at h
  · exact h
  · cases h

@[simp] theorem keeps_pass : Keeps p (pass : Script ν β) := fun _ => rfl

theorem Keeps.andThen (ha : Keeps p a) (hb : Keeps p b) : Keeps p (a.andThen b) := by
  intro t
  unfold Script.andThen
  split_ifs with h
  · rw [hb, ha]
  · exact ha t

theorem Keeps.forEach {α : Type*} {f : α → Script ν β} {xs : List α}
    (h : ∀ x ∈ xs, Keeps p (f x)) : Keeps p (forEach f xs) := by
  induction xs with
  | nil => exact keeps_pass
  | cons x xs ih =>
    exact (h x List.mem_cons_self).andThen (ih fun y hy => h y (List.mem_cons_of_mem x hy))

end Script

end Aidars
