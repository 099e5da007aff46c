import Mathlib.Data.List.Basic
import Mathlib.Data.String.Basic
import Mathlib.Tactic.Common

/-!
# Paths

A path is the list of its names from the root. `PathName` holds the names that a directory entry can
have, so a path has no empty, current or parent directory among its names. `components` reads the
text of a path, `resolvePath` follows it from a directory where there are no links, and `pathStr`
writes a path as absolute text: `resolvePath_pathStr` says that reading what was written gives the
path back.
-/

namespace Aidars

/-- A name that an entry of a directory can have. -/
structure PathName where
  text : String
  ne_empty : text ≠ ""
  ne_dot : text ≠ "."
  ne_up : text ≠ ".."
  no_slash : '/' ∉ text.toList
  deriving DecidableEq

@[ext] theorem PathName.ext {m n : PathName} (h : m.text = n.text) : m = n := by
  cases m
  cases n
  cases h
  rfl

/-- A name with more text after it, in which there is more than dots. -/
def PathName.append (name : PathName) (suffix : String) (h : ∃ c ∈ suffix.toList, c ≠ '.')
    (hslash : '/' ∉ suffix.toList) : PathName :=
  have hdots (s : String) (hs : ∀ c ∈ s.toList, c = '.') : name.text ++ suffix ≠ s := by
    rintro rfl
    obtain ⟨c, hc, hne⟩ := h
    exact hne (hs c (by simp [hc]))
  { text := name.text ++ suffix
    ne_empty := hdots "" (by simp)
    ne_dot := hdots "." (by simp)
    ne_up := hdots ".." (by simp)
    no_slash := by
      rw [String.toList_append, List.mem_append]
      exact fun hmem => hmem.elim name.no_slash hslash }

/-- A path, as the names from the root. -/
abbrev Path := List PathName

/-- One step of a path in text. -/
inductive Component
  | up
  | name (n : PathName)
  deriving DecidableEq

/-- The step that a piece of text between slashes is. -/
def component? (s : String) : Option Component :=
  if s = ".." then some .up
  else if h : s ≠ "" ∧ s ≠ "." ∧ s ≠ ".." ∧ '/' ∉ s.toList then
    some (.name ⟨s, h.1, h.2.1, h.2.2.1, h.2.2.2⟩)
  else none

/-- The pieces of a text between slashes. -/
def pieces (s : String) : List String := (s.toList.splitOn '/').map String.ofList

/-- The steps of a path in text. -/
def components (s : String) : List Component := (pieces s).filterMap component?

/-- The path after a step. -/
def advance (p : Path) : Component → Path
  | .up => p.dropLast
  | .name n => p ++ [n]

/-- The text starts at the root. -/
def isAbsolute (s : String) : Bool := s.toList.head? == some '/'

/-- The path that a text names, read from a directory. -/
def resolvePath (base : Path) (s : String) : Path :=
  (components s).foldl advance (if isAbsolute s then [] else base)

/-- The directory that a text names an entry of, read from a directory. -/
def resolveParent (base : Path) (s : String) : Path :=
  (components s).dropLast.foldl advance (if isAbsolute s then [] else base)

/-- The last piece of a text that is neither empty nor the current directory. -/
def pathName (s : String) : String :=
  (((pieces s).filter fun piece => piece ≠ "" ∧ piece ≠ ".").getLast?).getD ""

/-- A path as text, from the directory it starts in. -/
def relStr (p : Path) : String := String.ofList (['/'].intercalate (p.map (·.text.toList)))

/-- A path as absolute text. -/
def pathStr (p : Path) : String := String.ofList ('/' :: (relStr p).toList)

/-- A part between separators has only characters of the whole. -/
theorem mem_of_mem_splitOn {a c : Char} {l m : List Char} (hm : m ∈ l.splitOn a) (hc : c ∈ m) :
    c ∈ l := by
  induction l generalizing m with
  | nil =>
    rw [List.splitOn_nil, List.mem_singleton] at hm
    exact hm ▸ hc
  | cons d l ih =>
    rw [List.splitOn_cons_eq_if_modifyHead] at hm
    split_ifs at hm with h
    · rcases List.mem_cons.1 hm with rfl | hm
      · cases hc
      · exact List.mem_cons_of_mem d (ih hm hc)
    · cases hsplit : l.splitOn a with
      | nil => exact absurd hsplit (List.splitOn_ne_nil a l)
      | cons m₀ ms =>
        rw [hsplit, List.modifyHead_cons, List.mem_cons] at hm
        rw [hsplit] at ih
        obtain rfl | hm := hm
        · obtain rfl | hc := List.mem_cons.1 hc
          · exact List.mem_cons_self
          · exact List.mem_cons_of_mem d (ih List.mem_cons_self hc)
        · exact List.mem_cons_of_mem d (ih (List.mem_cons_of_mem m₀ hm) hc)

theorem notMem_of_mem_pieces {s piece : String} {c : Char} (hc : c ∉ s.toList)
    (h : piece ∈ pieces s) : c ∉ piece.toList := by
  obtain ⟨l, hl, rfl⟩ := List.mem_map.1 h
  rw [String.toList_ofList]
  exact fun hmem => hc (mem_of_mem_splitOn hl hmem)

theorem notMem_pathName {s : String} {c : Char} (hc : c ∉ s.toList) : c ∉ (pathName s).toList := by
  unfold pathName
  cases hlast : ((pieces s).filter fun piece => piece ≠ "" ∧ piece ≠ ".").getLast? with
  | none => simp
  | some piece =>
    have hmem := List.mem_of_getLast? hlast
    exact notMem_of_mem_pieces hc (List.mem_filter.1 hmem).1

@[simp] theorem component?_text (n : PathName) : component? n.text = some (.name n) := by
  rw [component?, if_neg n.ne_up, dif_pos ⟨n.ne_empty, n.ne_dot, n.ne_up, n.no_slash⟩]

theorem filterMap_component?_text (p : Path) :
    (p.map fun n => n.text).filterMap component? = p.map .name := by
  induction p with
  | nil => rfl
  | cons n p ih => simp [ih]

theorem components_relStr (p : Path) : components (relStr p) = p.map .name := by
  cases p with
  | nil => rfl
  | cons n p =>
    have hsplit : pieces (relStr (n :: p)) = (n :: p).map fun n => n.text := by
      rw [pieces, relStr, String.toList_ofList, List.splitOn_intercalate]
      · simp
      · simp only [List.mem_map]
        rintro l ⟨m, -, rfl⟩
        exact m.no_slash
      · simp
    rw [components, hsplit, filterMap_component?_text]

theorem components_pathStr (p : Path) : components (pathStr p) = p.map .name := by
  have hsplit : pieces (pathStr p) = "" :: pieces (relStr p) := by
    rw [pieces, pathStr, String.toList_ofList,
      show '/' :: (relStr p).toList = [] ++ '/' :: (relStr p).toList from rfl,
      List.splitOn_append_cons_self_of_not_mem List.not_mem_nil]
    rfl
  have hnone : component? "" = none := by decide
  rw [components, hsplit, List.filterMap_cons_none hnone]
  exact components_relStr p

theorem foldl_advance_name (base p : Path) :
    (p.map Component.name).foldl advance base = base ++ p := by
  induction p generalizing base with
  | nil => simp
  | cons n p ih => simp [advance, ih]

@[simp] theorem resolvePath_pathStr (base p : Path) : resolvePath base (pathStr p) = p := by
  have habs : isAbsolute (pathStr p) = true := by simp [isAbsolute, pathStr]
  rw [resolvePath, habs, components_pathStr, if_pos rfl, foldl_advance_name, List.nil_append]

theorem isAbsolute_relStr (n : PathName) (p : Path) : isAbsolute (relStr (n :: p)) = false := by
  cases hn : n.text.toList with
  | nil => exact absurd (String.toList_eq_nil_iff.1 hn) n.ne_empty
  | cons c l =>
    have hc : c ≠ '/' := fun h => n.no_slash (hn ▸ h ▸ List.mem_cons_self)
    cases p <;> simp [isAbsolute, relStr, hn, hc]

/-- Relative text is followed from the directory it is read in. -/
theorem resolvePath_relStr (base : Path) (n : PathName) (p : Path) :
    resolvePath base (relStr (n :: p)) = base ++ n :: p := by
  rw [resolvePath, isAbsolute_relStr, components_relStr, if_neg Bool.false_ne_true,
    foldl_advance_name]

theorem resolveParent_relStr (base : Path) (n : PathName) (p : Path) :
    resolveParent base (relStr (n :: p)) = base ++ (n :: p).dropLast := by
  rw [resolveParent, isAbsolute_relStr, components_relStr, if_neg Bool.false_ne_true,
    ← List.map_dropLast, foldl_advance_name]

/-! ## Common paths -/

/-- The longest path that both paths start with. -/
def commonPath : Path → Path → Path
  | m :: p, n :: q => if m = n then m :: commonPath p q else []
  | _, _ => []

theorem commonPath_append (p q : Path) : commonPath p (p ++ q) = p := by
  induction p with
  | nil => simp [commonPath]
  | cons n p ih => simp [commonPath, ih]

/-- Text without a slash, other than the names of the directories, is one step. -/
theorem resolvePath_name (base : Path) (n : PathName) : resolvePath base n.text = base ++ [n] := by
  have hrel : relStr [n] = n.text := by simp [relStr]
  rw [← hrel, resolvePath_relStr]

end Aidars
