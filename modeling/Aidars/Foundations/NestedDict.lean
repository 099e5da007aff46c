import Mathlib.Data.Option.Basic
import Mathlib.Data.List.Basic

/-!
# Nested dictionaries

A `NestedDict` is a dictionary of text keys whose values are leaves of any type or dictionaries
again. What it has under a path of keys is its `view`: a leaf, a dictionary, nothing (`missing`), or
no answer since the path leads through a leaf (`stuck`).

`mergeFrom rule ref cs` merges the values `cs` along the keys of a reference: a leaf by `rule`, of
which the arguments are the key, the leaf of the reference, and what each value has under the key;
a dictionary by merging what the values have under its key, where a value that has nothing counts
as an empty dictionary. `mergeFrom_view` says what a merged dictionary has under each path, and
`exists_mergeFrom` when there is one.
-/

namespace Aidars

/-- A dictionary: its entries, each a leaf or a dictionary. -/
inductive NestedDict (L : Type*)
  | nil
  | leaf (key : String) (value : L) (rest : NestedDict L)
  | dict (key : String) (value rest : NestedDict L)
  deriving DecidableEq

namespace NestedDict

variable {L M ω : Type*}

/-- A value in a dictionary. -/
inductive Value (L : Type*)
  | leaf (v : L)
  | dict (d : NestedDict L)

/-- What there is under a path; a dictionary may be empty. -/
inductive Found (L : Type*)
  | missing
  | stuck
  | leaf (v : L)
  | dict (isNil : Bool)
  deriving DecidableEq

/-- The dictionary is empty. -/
def isNil : NestedDict L → Bool
  | nil => true
  | _ => false

/-- The value under a key. -/
def get : NestedDict L → String → Option (Value L)
  | nil, _ => none
  | leaf k v rest, key => if k = key then some (.leaf v) else rest.get key
  | dict k d rest, key => if k = key then some (.dict d) else rest.get key

/-- A value under a key in front of other entries. -/
def entry (key : String) : Value L → NestedDict L → NestedDict L
  | .leaf v, rest => leaf key v rest
  | .dict d, rest => dict key d rest

/-- Set the value under a key: in place if the key is there, at the end otherwise. -/
def set : NestedDict L → String → Value L → NestedDict L
  | nil, key, value => entry key value nil
  | leaf k v rest, key, value =>
    if k = key then entry key value rest else leaf k v (rest.set key value)
  | dict k d rest, key, value =>
    if k = key then entry key value rest else dict k d (rest.set key value)

/-- The value is a dictionary. -/
def Value.isDict : Value L → Bool
  | .leaf _ => false
  | .dict _ => true

/-- The value under a key, where only a dictionary can be asked for one. -/
def Value.get? : Value L → String → Option (Option (Value L))
  | .leaf _, _ => none
  | .dict d, key => some (d.get key)

/-- What a value has under a path. -/
def Value.view : Value L → List String → Found L
  | .leaf v, [] => .leaf v
  | .leaf _, _ :: _ => .stuck
  | .dict d, [] => .dict d.isNil
  | .dict d, key :: path =>
    match d.get key with
    | none => .missing
    | some value => value.view path

/-- What a dictionary has under a path. -/
def view (d : NestedDict L) (path : List String) : Found L := (Value.dict d).view path

/-- No key occurs twice in a dictionary. -/
def Distinct : NestedDict L → Prop
  | nil => True
  | leaf k _ rest => rest.get k = none ∧ rest.Distinct
  | dict k d rest => rest.get k = none ∧ d.Distinct ∧ rest.Distinct

/-- What the values have under a key, where nothing counts as an empty dictionary. -/
def subDicts (k : String) : List (Value L × ω) → Option (List (Value L × ω))
  | [] => some []
  | c :: cs => (c.1.get? k).bind fun value =>
    (subDicts k cs).map fun subs => (value.getD (.dict nil), c.2) :: subs

/-- What the values have under a path, next to what they come with. -/
def column (cs : List (Value L × ω)) (path : List String) : List (Found L × ω) :=
  cs.map fun c => (c.1.view path, c.2)

/-- Merge some values along the keys of a reference. -/
def mergeFrom (rule : String → L → List (Found L × ω) → Option M) :
    NestedDict L → List (Value L × ω) → Option (NestedDict M)
  | nil, _ => some nil
  | leaf k v rest, cs =>
    (rule k v (column cs [k])).bind fun v' =>
      (mergeFrom rule rest cs).map fun rest' => leaf k v' rest'
  | dict k d rest, cs =>
    (subDicts k cs).bind fun subs =>
      (mergeFrom rule d subs).bind fun d' =>
        (mergeFrom rule rest cs).map fun rest' => dict k d' rest'

/-! ## Views -/

theorem view_cons (d : NestedDict L) (key : String) (path : List String) :
    d.view (key :: path) = match d.get key with
      | none => .missing
      | some value => value.view path := rfl

theorem view_of_get_none {d : NestedDict L} {key : String} (h : d.get key = none)
    (path : List String) : d.view (key :: path) = .missing := by
  rw [view_cons, h]

theorem view_of_get_some {d : NestedDict L} {key : String} {value : Value L}
    (h : d.get key = some value) (path : List String) :
    d.view (key :: path) = value.view path := by
  rw [view_cons, h]

/-! ## The values under a key -/

@[simp] theorem subDicts_nil (k : String) : subDicts k ([] : List (Value L × ω)) = some [] := rfl

theorem subDicts_leaf (k : String) (v : L) (w : ω) (cs : List (Value L × ω)) :
    subDicts k ((.leaf v, w) :: cs) = none := rfl

theorem subDicts_dict (k : String) (d : NestedDict L) (w : ω) (cs : List (Value L × ω)) :
    subDicts k ((.dict d, w) :: cs) =
      (subDicts k cs).map (((d.get k).getD (.dict nil), w) :: ·) := rfl

/-- Under a path, what the values have under the first key is what they have. -/
theorem view_subDicts {k : String} {cs subs : List (Value L × ω)} (h : subDicts k cs = some subs)
    {path : List String} (hpath : path ≠ []) :
    column subs path = column cs (k :: path) := by
  induction cs generalizing subs with
  | nil =>
    obtain rfl := Option.some.inj h
    rfl
  | cons c cs ih =>
    obtain ⟨value, w⟩ := c
    cases value with
    | leaf v => simp [subDicts_leaf] at h
    | dict d =>
      rw [subDicts_dict, Option.map_eq_some_iff] at h
      obtain ⟨rest, hrest, rfl⟩ := h
      simp only [column, List.map_cons] at ih ⊢
      rw [ih hrest]
      congr 2
      cases hget : d.get k with
      | none =>
        obtain ⟨key, path, rfl⟩ := List.exists_cons_of_ne_nil hpath
        exact (view_of_get_none hget _).symm
      | some value => exact (view_of_get_some hget _).symm

/-- There are values under a key unless one of the values is a leaf. -/
theorem exists_subDicts {k : String} {cs : List (Value L × ω)} :
    (∃ subs, subDicts k cs = some subs) ↔ ∀ c ∈ cs, c.1.view [k] ≠ .stuck := by
  induction cs with
  | nil => simp
  | cons c cs ih =>
    obtain ⟨value, w⟩ := c
    rw [List.forall_mem_cons, ← ih]
    cases value with
    | leaf v => simp [subDicts_leaf, Value.view]
    | dict d =>
      have hview : d.view [k] ≠ .stuck := by
        rw [view_cons]
        rcases d.get k with - | - | - <;> simp [Value.view]
      simp only [subDicts_dict, Option.map_eq_some_iff]
      constructor
      · rintro ⟨-, subs, hsubs, -⟩
        exact ⟨hview, subs, hsubs⟩
      · rintro ⟨-, subs, hsubs⟩
        exact ⟨_, subs, hsubs, rfl⟩

/-! ## Merged dictionaries -/

section Merge

variable {rule : String → L → List (Found L × ω) → Option M}

/-- What a merged dictionary has where the reference has something: a leaf is the rule's, the rest
is as in the reference. -/
def Merged (rule : String → L → List (Found L × ω) → Option M) (key : String)
    (col : List (Found L × ω)) : Found L → Found M → Prop
  | .missing, .missing | .stuck, .stuck => True
  | .dict isNil, .dict isNil' => isNil = isNil'
  | .leaf v, .leaf v' => rule key v col = some v'
  | _, _ => False

theorem isNil_mergeFrom {ref : NestedDict L} {cs : List (Value L × ω)} {m : NestedDict M}
    (h : mergeFrom rule ref cs = some m) : ref.isNil = m.isNil := by
  cases ref with
  | nil =>
    obtain rfl := Option.some.inj h
    rfl
  | leaf | dict =>
    simp only [mergeFrom, Option.bind_eq_some_iff, Option.map_eq_some_iff] at h
    grind [isNil]

/-- What a merged dictionary has under a key. -/
theorem get_mergeFrom {ref : NestedDict L} {cs : List (Value L × ω)} {m : NestedDict M}
    (h : mergeFrom rule ref cs = some m) (key : String) :
    match ref.get key with
    | none => m.get key = none
    | some (.leaf v) => ∃ v', rule key v (column cs [key]) = some v' ∧ m.get key = some (.leaf v')
    | some (.dict d) => ∃ subs d', subDicts key cs = some subs ∧
        mergeFrom rule d subs = some d' ∧ m.get key = some (.dict d') := by
  induction ref generalizing m with
  | nil =>
    obtain rfl := Option.some.inj h
    rfl
  | leaf k v rest ih =>
    simp only [mergeFrom, Option.bind_eq_some_iff, Option.map_eq_some_iff] at h
    obtain ⟨v', hv', rest', hrest, rfl⟩ := h
    by_cases hkey : k = key
    · subst hkey
      simpa [get, column] using hv'
    · simpa [get, hkey] using ih hrest
  | dict k d rest _ ih =>
    simp only [mergeFrom, Option.bind_eq_some_iff, Option.map_eq_some_iff] at h
    obtain ⟨subs, hsubs, d', hd', rest', hrest, rfl⟩ := h
    by_cases hkey : k = key
    · subst hkey
      simpa [get] using ⟨subs, hsubs, hd'⟩
    · simpa [get, hkey] using ih hrest

/-- **What a merged dictionary has under a path.** -/
theorem mergeFrom_view {ref : NestedDict L} {cs : List (Value L × ω)} {m : NestedDict M}
    (h : mergeFrom rule ref cs = some m) (path : List String) :
    Merged rule (path.getLastD "") (column cs path) (ref.view path) (m.view path) := by
  induction path generalizing ref cs m with
  | nil => exact isNil_mergeFrom h
  | cons key path ih =>
    have hget := get_mergeFrom h key
    cases href : ref.get key with
    | none =>
      rw [href] at hget
      rw [view_of_get_none href, view_of_get_none hget]
      trivial
    | some value =>
      rw [view_of_get_some href]
      cases value with
      | leaf v =>
        rw [href] at hget
        obtain ⟨v', hv', hm⟩ := hget
        rw [view_of_get_some hm]
        cases path with
        | nil => exact hv'
        | cons _ _ => trivial
      | dict d =>
        rw [href] at hget
        obtain ⟨subs, d', hsubs, hd', hm⟩ := hget
        rw [view_of_get_some hm]
        by_cases hpath : path = []
        · subst hpath
          exact isNil_mergeFrom hd'
        · have hcol : column subs path = column cs (key :: path) := view_subDicts hsubs hpath
          have hlast : (key :: path).getLastD "" = path.getLastD "" := by
            obtain ⟨first, path, rfl⟩ := List.exists_cons_of_ne_nil hpath
            rfl
          rw [hlast, ← hcol]
          exact ih hd'

theorem exists_mem_column {cs subs : List (Value L × ω)} {path path' : List String}
    (h : column subs path' = column cs path) {c : Value L × ω} (hc : c ∈ cs) :
    ∃ sub ∈ subs, sub.1.view path' = c.1.view path := by
  have hmem : (c.1.view path, c.2) ∈ column subs path' := by
    rw [h]
    exact List.mem_map_of_mem hc
  obtain ⟨sub, hsub, heq⟩ := List.mem_map.mp hmem
  exact ⟨sub, hsub, congrArg Prod.fst heq⟩

/-- What is asked of the values under a path for there to be a merged dictionary: the rule gives a
leaf, and no value has a leaf above where the reference has a dictionary. -/
def MergeableAt (rule : String → L → List (Found L × ω) → Option M) (cs : List (Value L × ω))
    (path : List String) : Found L → Prop
  | .leaf v => ∃ v', rule (path.getLastD "") v (column cs path) = some v'
  | .dict _ => path ≠ [] → ∀ c ∈ cs, c.1.view path ≠ .stuck
  | _ => True

theorem not_stuck_of_mergeFrom {ref : NestedDict L} {cs : List (Value L × ω)} {m : NestedDict M}
    (h : mergeFrom rule ref cs = some m) {path : List String} (hpath : path ≠ []) {isNil : Bool}
    (href : ref.view path = .dict isNil) : ∀ c ∈ cs, c.1.view path ≠ .stuck := by
  induction path generalizing ref cs m with
  | nil => exact absurd rfl hpath
  | cons key path ih =>
    have hget := get_mergeFrom h key
    rw [view_cons] at href
    cases hkey : ref.get key with
    | none => simp [hkey] at href
    | some value =>
      rw [hkey] at href hget
      cases value with
      | leaf v => cases path <;> simp [Value.view] at href
      | dict d =>
        obtain ⟨subs, d', hsubs, hd', -⟩ := hget
        by_cases hnil : path = []
        · subst hnil
          exact exists_subDicts.mp ⟨subs, hsubs⟩
        · intro c hc
          obtain ⟨sub, hsub, heq⟩ := exists_mem_column (view_subDicts hsubs hnil) hc
          rw [← heq]
          exact ih hd' hnil href sub hsub

theorem mergeableAt_of_mergeFrom {ref : NestedDict L} {cs : List (Value L × ω)}
    {m : NestedDict M} (h : mergeFrom rule ref cs = some m) (path : List String) :
    MergeableAt rule cs path (ref.view path) := by
  have hview := mergeFrom_view h path
  cases href : ref.view path with
  | missing => trivial
  | stuck => trivial
  | dict => exact fun hpath => not_stuck_of_mergeFrom h hpath href
  | leaf v =>
    rw [href] at hview
    cases hm : m.view path with
    | leaf v' => exact ⟨v', by simpa [hm, Merged] using hview⟩
    | missing | stuck | dict => simp [hm, Merged] at hview

/-- What is asked of a dictionary is asked of its later entries. -/
theorem mergeableAt_rest {ref rest : NestedDict L} {cs : List (Value L × ω)}
    (h : ∀ path, MergeableAt rule cs path (ref.view path))
    (hrest : ∀ key, rest.get key = none ∨ rest.get key = ref.get key) (path : List String) :
    MergeableAt rule cs path (rest.view path) := by
  cases path with
  | nil => exact fun hpath => absurd rfl hpath
  | cons key path =>
    rcases hrest key with hnone | hsame
    · rw [view_of_get_none hnone]
      trivial
    · rw [view_cons, hsame, ← view_cons]
      exact h (key :: path)

/-- **When there is a merged dictionary.** -/
theorem exists_mergeFrom {ref : NestedDict L} (hdistinct : ref.Distinct)
    {cs : List (Value L × ω)} :
    (∃ m, mergeFrom rule ref cs = some m) ↔
      ∀ path, MergeableAt rule cs path (ref.view path) := by
  constructor
  · rintro ⟨m, h⟩ path
    exact mergeableAt_of_mergeFrom h path
  intro h
  induction ref generalizing cs with
  | nil => exact ⟨nil, rfl⟩
  | leaf k v rest ih =>
    obtain ⟨hk, hrest⟩ := hdistinct
    have hget : (leaf k v rest).get k = some (.leaf v) := by simp [get]
    have hv := h [k]
    rw [view_of_get_some hget] at hv
    obtain ⟨v', hv'⟩ := hv
    replace hv' : rule k v (column cs [k]) = some v' := hv'
    have hlater : ∀ key, rest.get key = none ∨ rest.get key = (leaf k v rest).get key := by
      intro key
      by_cases hkey : k = key
      · exact Or.inl (hkey ▸ hk)
      · exact Or.inr (by simp [get, hkey])
    obtain ⟨rest', hrest'⟩ := ih hrest (mergeableAt_rest h hlater)
    exact ⟨leaf k v' rest', by simp [mergeFrom, hv', hrest']⟩
  | dict k d rest ihd ih =>
    obtain ⟨hk, hd, hrest⟩ := hdistinct
    have hget : (dict k d rest).get k = some (.dict d) := by simp [get]
    have hv := h [k]
    rw [view_of_get_some hget] at hv
    obtain ⟨subs, hsubs⟩ := exists_subDicts.mpr (hv (by simp))
    have hlater : ∀ key, rest.get key = none ∨ rest.get key = (dict k d rest).get key := by
      intro key
      by_cases hkey : k = key
      · exact Or.inl (hkey ▸ hk)
      · exact Or.inr (by simp [get, hkey])
    have hsub : ∀ path, MergeableAt rule subs path (d.view path) := by
      intro path
      cases path with
      | nil => exact fun hpath => absurd rfl hpath
      | cons first path =>
        have hpath := h (k :: first :: path)
        have hcol : column subs (first :: path) = column cs (k :: first :: path) :=
          view_subDicts hsubs (by simp)
        rw [view_of_get_some hget] at hpath
        cases hview : d.view (first :: path) with
        | missing | stuck => trivial
        | leaf v =>
          rw [show Value.view (.dict d) (first :: path) = .leaf v from hview] at hpath
          rw [MergeableAt, hcol]
          exact hpath
        | dict isNil =>
          rw [show Value.view (.dict d) (first :: path) = .dict isNil from hview] at hpath
          intro _ c hc
          obtain ⟨sub, hsub, heq⟩ := exists_mem_column hcol.symm hc
          rw [← heq]
          exact hpath (by simp) sub hsub
    obtain ⟨d', hd'⟩ := ihd hd hsub
    obtain ⟨rest', hrest'⟩ := ih hrest (mergeableAt_rest h hlater)
    exact ⟨dict k d' rest', by simp [mergeFrom, hsubs, hd', hrest']⟩

end Merge

end NestedDict

end Aidars
