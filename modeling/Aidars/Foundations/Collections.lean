import Mathlib.Data.List.Dedup
import Mathlib.Data.List.Induction
import Mathlib.Data.List.Nodup

/-!
# Dictionaries and sets with an iteration order

The containers of the modelled program are insertion-ordered dictionaries and sets that are
iterated while other containers change. `Dict κ ν` is a list of entries with distinct keys and
`PySet α` a list of distinct elements: both carry their invariant, run under `decide`, and are
reasoned about by lookup (`get?_set`, `get?_erase`) and by membership (`mem_insert`, `mem_diff`)
only. Writing to a present key keeps its position, a new key goes to the end.

`Dict.countP_set` counts the values that satisfy a predicate after a write, the form in which
bounds on the number of active records are kept.
-/

namespace Aidars

/-- A dictionary: its entries in insertion order, the keys distinct. -/
structure Dict (κ ν : Type*) where
  entries : List (κ × ν)
  nodup : (entries.map Prod.fst).Nodup
  deriving DecidableEq

namespace Dict

variable {κ ν : Type*} [DecidableEq κ]

/-- The empty dictionary. -/
def empty : Dict κ ν := ⟨[], List.nodup_nil⟩

instance : EmptyCollection (Dict κ ν) := ⟨empty⟩

instance : Inhabited (Dict κ ν) := ⟨empty⟩

/-- The value at a key. -/
def get? (d : Dict κ ν) (k : κ) : Option ν := d.entries.lookup k

/-- The keys, in insertion order. -/
def keys (d : Dict κ ν) : List κ := d.entries.map Prod.fst

/-- The values, in insertion order of their keys. -/
def values (d : Dict κ ν) : List ν := d.entries.map Prod.snd

/-- The entries after writing `v` at `k`: in place if the key is there, at the end otherwise. -/
def setEntries (k : κ) (v : ν) : List (κ × ν) → List (κ × ν)
  | [] => [(k, v)]
  | (k', v') :: l => if k' = k then (k, v) :: l else (k', v') :: setEntries k v l

theorem mem_map_fst_setEntries {k k' : κ} {v : ν} {l : List (κ × ν)} :
    k' ∈ (setEntries k v l).map Prod.fst ↔ k' = k ∨ k' ∈ l.map Prod.fst := by
  induction l with
  | nil => simp [setEntries]
  | cons e l ih =>
    obtain ⟨k₀, v₀⟩ := e
    by_cases h : k₀ = k
    · subst h
      simp [setEntries]
    · simp only [setEntries, h, if_false, List.map_cons, List.mem_cons, ih]
      tauto

theorem nodup_setEntries {k : κ} {v : ν} {l : List (κ × ν)} (h : (l.map Prod.fst).Nodup) :
    ((setEntries k v l).map Prod.fst).Nodup := by
  induction l with
  | nil => simp [setEntries]
  | cons e l ih =>
    obtain ⟨k₀, v₀⟩ := e
    rw [List.map_cons, List.nodup_cons] at h
    by_cases hk : k₀ = k
    · subst hk
      simpa only [setEntries, if_true, List.map_cons, List.nodup_cons] using h
    · simp only [setEntries, hk, if_false, List.map_cons, List.nodup_cons]
      refine ⟨?_, ih h.2⟩
      rw [mem_map_fst_setEntries]
      rintro (rfl | h')
      · exact hk rfl
      · exact h.1 h'

/-- Write `v` at `k`. -/
def set (d : Dict κ ν) (k : κ) (v : ν) : Dict κ ν :=
  ⟨setEntries k v d.entries, nodup_setEntries d.nodup⟩

/-- Delete the entry at `k`, if there is one. -/
def erase (d : Dict κ ν) (k : κ) : Dict κ ν :=
  ⟨d.entries.filter (·.1 ≠ k), d.nodup.sublist (List.filter_sublist.map Prod.fst)⟩

/-- Apply `f` to the value at `k`, if there is one. -/
def modify (d : Dict κ ν) (k : κ) (f : ν → ν) : Dict κ ν :=
  match d.get? k with
  | some v => d.set k (f v)
  | none => d

/-- Apply `f` to every entry's value. -/
def mapValues {ν' : Type*} (d : Dict κ ν) (f : κ → ν → ν') : Dict κ ν' :=
  ⟨d.entries.map fun e => (e.1, f e.1 e.2), by rw [List.map_map]; exact d.nodup⟩

/-- Apply `f` to every value, dropping the entries for which it gives none. -/
def filterMapValues {ν' : Type*} (d : Dict κ ν) (f : ν → Option ν') : Dict κ ν' :=
  ⟨d.entries.filterMap fun e => (f e.2).map (Prod.mk e.1), by
    have hkeys : (d.entries.filterMap fun e => (f e.2).map (Prod.mk e.1)).map Prod.fst =
        (d.entries.filter fun e => (f e.2).isSome).map Prod.fst := by
      induction d.entries with
      | nil => rfl
      | cons e l ih => cases h : f e.2 <;> simp [h, ih]
    rw [hkeys]
    exact d.nodup.sublist (List.filter_sublist.map Prod.fst)⟩

omit [DecidableEq κ] in
/-- Two dictionaries with the same entries in the same order are equal. -/
theorem ext_entries {d d' : Dict κ ν} (h : d.entries = d'.entries) : d = d' := by
  obtain ⟨l, hl⟩ := d
  obtain ⟨l', hl'⟩ := d'
  obtain rfl : l = l' := h
  rfl

theorem setEntries_of_notMem {k : κ} {v : ν} {l : List (κ × ν)} (h : k ∉ l.map Prod.fst) :
    setEntries k v l = l ++ [(k, v)] := by
  induction l with
  | nil => rfl
  | cons e l ih =>
    obtain ⟨k₀, v₀⟩ := e
    rw [List.map_cons, List.mem_cons, not_or] at h
    rw [setEntries, if_neg (Ne.symm h.1), ih h.2, List.cons_append]

/-! ## Lookup -/

@[simp] theorem get?_empty (k : κ) : (∅ : Dict κ ν).get? k = none := rfl

theorem lookup_cons_ite (k k₀ : κ) (v₀ : ν) (l : List (κ × ν)) :
    ((k₀, v₀) :: l).lookup k = if k = k₀ then some v₀ else l.lookup k := by
  by_cases h : k = k₀
  · simp [h]
  · have hb : (k == k₀) = false := beq_eq_false_iff_ne.2 h
    simp only [List.lookup_cons, hb, h, if_false]

theorem lookup_setEntries (k k' : κ) (v : ν) (l : List (κ × ν)) :
    (setEntries k v l).lookup k' = if k' = k then some v else l.lookup k' := by
  induction l with
  | nil => rw [setEntries, lookup_cons_ite]
  | cons e l ih =>
    obtain ⟨k₀, v₀⟩ := e
    by_cases hk : k₀ = k
    · subst hk
      simp only [setEntries, if_true, lookup_cons_ite]
      split_ifs <;> rfl
    · simp only [setEntries, hk, if_false, lookup_cons_ite, ih]
      by_cases h : k' = k₀
      · subst h
        simp [hk]
      · simp [h]

@[simp] theorem get?_set (d : Dict κ ν) (k k' : κ) (v : ν) :
    (d.set k v).get? k' = if k' = k then some v else d.get? k' :=
  lookup_setEntries k k' v d.entries

theorem lookup_filter_ne (k k' : κ) (l : List (κ × ν)) :
    (l.filter (·.1 ≠ k)).lookup k' = if k' = k then none else l.lookup k' := by
  induction l with
  | nil => simp
  | cons e l ih =>
    obtain ⟨k₀, v₀⟩ := e
    by_cases hk : k₀ = k
    · subst hk
      rw [List.filter_cons_of_neg (by simp), ih, lookup_cons_ite]
      split_ifs <;> rfl
    · rw [List.filter_cons_of_pos (by simpa using hk), lookup_cons_ite, lookup_cons_ite, ih]
      by_cases h : k' = k₀
      · subst h
        simp [hk]
      · simp [h]

@[simp] theorem get?_erase (d : Dict κ ν) (k k' : κ) :
    (d.erase k).get? k' = if k' = k then none else d.get? k' :=
  lookup_filter_ne k k' d.entries

@[simp] theorem get?_modify (d : Dict κ ν) (k k' : κ) (f : ν → ν) :
    (d.modify k f).get? k' = if k' = k then (d.get? k).map f else d.get? k' := by
  unfold modify
  cases hk : d.get? k with
  | none => by_cases h : k' = k <;> simp [h, hk]
  | some v => simp

@[simp] theorem get?_mapValues {ν' : Type*} (d : Dict κ ν) (f : κ → ν → ν') (k : κ) :
    (d.mapValues f).get? k = (d.get? k).map (f k) := by
  unfold get? mapValues
  dsimp only
  induction d.entries with
  | nil => rfl
  | cons e l ih =>
    rw [List.map_cons, lookup_cons_ite, ih, lookup_cons_ite _ e.1 e.2]
    split_ifs with h
    · rw [h, Option.map_some]
    · rfl

theorem mem_entries {d : Dict κ ν} {k : κ} {v : ν} : (k, v) ∈ d.entries ↔ d.get? k = some v := by
  obtain ⟨l, hl⟩ := d
  simp only [get?]
  induction l with
  | nil => simp
  | cons e l ih =>
    obtain ⟨k₀, v₀⟩ := e
    rw [List.map_cons, List.nodup_cons] at hl
    rw [lookup_cons_ite, List.mem_cons, Prod.mk.injEq, ih hl.2]
    by_cases h : k = k₀
    · subst h
      have : l.lookup k = none := by
        rw [List.lookup_eq_none_iff]
        rintro ⟨a, b⟩ hp
        exact bne_iff_ne.2 fun (e : k = a) => hl.1 (List.mem_map.2 ⟨_, hp, e.symm⟩)
      simp [this, eq_comm]
    · simp [h]

theorem get?_filterMapValues {ν' : Type*} (d : Dict κ ν) (f : ν → Option ν') (k : κ) :
    (d.filterMapValues f).get? k = (d.get? k).bind f := by
  refine Option.ext fun v => ?_
  rw [← mem_entries, Option.bind_eq_some_iff]
  simp only [filterMapValues, List.mem_filterMap, Prod.exists, mem_entries]
  constructor
  · rintro ⟨k', v', hget, hmap⟩
    obtain ⟨v₁, hf, he⟩ := Option.map_eq_some_iff.1 hmap
    obtain ⟨rfl, rfl⟩ := Prod.mk.inj he
    exact ⟨v', hget, hf⟩
  · rintro ⟨v', hget, hf⟩
    exact ⟨k, v', hget, by rw [hf, Option.map_some]⟩

theorem mem_keys {d : Dict κ ν} {k : κ} : k ∈ d.keys ↔ ∃ v, d.get? k = some v := by
  simp only [keys, List.mem_map, Prod.exists, exists_and_right, exists_eq_right, mem_entries]

theorem map_fst_setEntries_of_mem {k : κ} {v : ν} {l : List (κ × ν)} (h : k ∈ l.map Prod.fst) :
    (setEntries k v l).map Prod.fst = l.map Prod.fst := by
  induction l with
  | nil => cases h
  | cons e l ih =>
    obtain ⟨k₀, v₀⟩ := e
    rw [setEntries]
    split_ifs with hk
    · rw [List.map_cons, List.map_cons, hk]
    · rw [List.map_cons, List.mem_cons] at h
      rw [List.map_cons, List.map_cons, ih (h.resolve_left (Ne.symm hk))]

theorem keys_set_of_some {d : Dict κ ν} {k : κ} {w : ν} (v : ν) (h : d.get? k = some w) :
    (d.set k v).keys = d.keys :=
  map_fst_setEntries_of_mem (mem_keys.2 ⟨w, h⟩)

/-- Changing a value keeps the keys. -/
@[simp] theorem keys_modify (d : Dict κ ν) (k : κ) (f : ν → ν) : (d.modify k f).keys = d.keys := by
  unfold modify
  split
  case h_1 v hv => exact keys_set_of_some _ hv
  case h_2 => rfl

theorem mem_values {d : Dict κ ν} {v : ν} : v ∈ d.values ↔ ∃ k, d.get? k = some v := by
  simp only [values, List.mem_map, Prod.exists, exists_eq_right, mem_entries]

theorem not_mem_keys {d : Dict κ ν} {k : κ} : k ∉ d.keys ↔ d.get? k = none := by
  rw [mem_keys, ← Option.isSome_iff_exists, Option.not_isSome_iff_eq_none]

/-- Dictionaries with the same keys in one order, and the same values, are equal. -/
theorem ext_keys {d d' : Dict κ ν} (hkeys : d.keys = d'.keys) (h : ∀ k, d.get? k = d'.get? k) :
    d = d' := by
  have hlength : d.entries.length = d'.entries.length := by
    have := congrArg List.length hkeys
    rwa [keys, keys, List.length_map, List.length_map] at this
  refine ext_entries (List.ext_getElem hlength fun i hi hi' => ?_)
  have hk : d.entries[i].1 = d'.entries[i].1 := by
    have := congrArg (fun l => l[i]?) hkeys
    simp only [keys, List.getElem?_map, List.getElem?_eq_getElem hi, List.getElem?_eq_getElem hi',
      Option.map_some] at this
    exact Option.some.inj this
  have hv : d.get? d.entries[i].1 = some d.entries[i].2 := mem_entries.1 (List.getElem_mem hi)
  have hv' : d'.get? d'.entries[i].1 = some d'.entries[i].2 := mem_entries.1 (List.getElem_mem hi')
  rw [h, hk, hv'] at hv
  exact Prod.ext hk (Option.some.inj hv).symm

omit [DecidableEq κ] in
@[simp] theorem keys_mapValues {ν' : Type*} (d : Dict κ ν) (f : κ → ν → ν') :
    (d.mapValues f).keys = d.keys := by
  unfold keys mapValues
  dsimp only
  rw [List.map_map]
  rfl

/-- Values that `f` leaves alone. -/
theorem mapValues_eq_self {d : Dict κ ν} {f : κ → ν → ν}
    (h : ∀ k v, d.get? k = some v → f k v = v) : d.mapValues f = d := by
  have hid : ∀ e ∈ d.entries, (e.1, f e.1 e.2) = e := by
    intro e he
    rw [h e.1 e.2 (mem_entries.1 he)]
  refine ext_entries ?_
  unfold mapValues
  dsimp only
  rw [List.map_congr_left hid, List.map_id']

omit [DecidableEq κ] in
/-- No entry is dropped when `f` gives a value for each. -/
theorem keys_filterMapValues {ν' : Type*} {d : Dict κ ν} {f : ν → Option ν'}
    (h : ∀ v ∈ d.values, (f v).isSome = true) : (d.filterMapValues f).keys = d.keys := by
  unfold values at h
  unfold filterMapValues keys
  dsimp only
  generalize d.entries = l at h ⊢
  induction l with
  | nil => rfl
  | cons e l ih =>
    rw [List.map_cons, List.forall_mem_cons] at h
    obtain ⟨v', hv'⟩ := Option.isSome_iff_exists.1 h.1
    rw [List.filterMap_cons, hv', Option.map_some, List.map_cons, List.map_cons, ih h.2]

theorem map_filterMap_values {α : Type*} {d : Dict κ ν} {f : ν → Option α} {key : α → κ}
    (h : ∀ k v, d.get? k = some v → ∃ a, f v = some a ∧ key a = k) :
    (d.values.filterMap f).map key = d.keys := by
  have hentries : ∀ e ∈ d.entries, ∃ a, f e.2 = some a ∧ key a = e.1 :=
    fun e he => h e.1 e.2 (mem_entries.1 he)
  unfold values keys
  generalize d.entries = l at hentries ⊢
  induction l with
  | nil => rfl
  | cons e l ih =>
    rw [List.forall_mem_cons] at hentries
    obtain ⟨a, ha, hk⟩ := hentries.1
    rw [List.map_cons, List.filterMap_cons, ha, List.map_cons, List.map_cons, hk, ih hentries.2]

theorem nodup_map_filterMap_entries {α : Type*} {d : Dict κ ν} {f : κ × ν → Option α} {key : α → κ}
    (h : ∀ k v a, d.get? k = some v → f (k, v) = some a → key a = k) :
    ((d.entries.filterMap f).map key).Nodup := by
  have hentries : ∀ e ∈ d.entries, ∀ a, f e = some a → key a = e.1 :=
    fun e he a => h e.1 e.2 a (mem_entries.1 he)
  have hsub : ((d.entries.filterMap f).map key).Sublist (d.entries.map Prod.fst) := by
    generalize d.entries = l at hentries ⊢
    induction l with
    | nil => exact .slnil
    | cons e l ih =>
      rw [List.forall_mem_cons] at hentries
      rw [List.filterMap_cons, List.map_cons]
      cases ha : f e with
      | none => exact (ih hentries.2).cons _
      | some a =>
        rw [List.map_cons, hentries.1 a ha]
        exact (ih hentries.2).cons_cons _
  exact d.nodup.sublist hsub

theorem nodup_map_filterMap_values {α : Type*} {d : Dict κ ν} {f : ν → Option α} {key : α → κ}
    (h : ∀ k v a, d.get? k = some v → f v = some a → key a = k) :
    ((d.values.filterMap f).map key).Nodup := by
  have hvalues : d.values.filterMap f = d.entries.filterMap fun e => f e.2 := by
    rw [values, List.filterMap_map]
    rfl
  rw [hvalues]
  exact nodup_map_filterMap_entries h

/-! ## Counting values -/

theorem countP_setEntries_of_none (p : ν → Bool) {k : κ} (v : ν) {l : List (κ × ν)}
    (h : l.lookup k = none) :
    ((setEntries k v l).map Prod.snd).countP p = (l.map Prod.snd).countP p + (p v).toNat := by
  induction l with
  | nil => cases hv : p v <;> simp [setEntries, hv]
  | cons e l ih =>
    obtain ⟨k₀, v₀⟩ := e
    rw [lookup_cons_ite] at h
    split_ifs at h with hk
    have hk' : ¬ k₀ = k := fun h => hk h.symm
    simp only [setEntries, hk', if_false, List.map_cons, List.countP_cons]
    have := ih h
    omega

theorem countP_setEntries_of_some (p : ν → Bool) {k : κ} {v w : ν} {l : List (κ × ν)}
    (h : l.lookup k = some w) :
    ((setEntries k v l).map Prod.snd).countP p + (p w).toNat =
      (l.map Prod.snd).countP p + (p v).toNat := by
  induction l with
  | nil => simp at h
  | cons e l ih =>
    obtain ⟨k₀, v₀⟩ := e
    rw [lookup_cons_ite] at h
    split_ifs at h with hk
    · subst hk
      obtain rfl := Option.some.inj h
      simp only [setEntries, if_true, List.map_cons, List.countP_cons]
      cases p v <;> cases p v₀ <;> simp
    · have hk' : ¬ k₀ = k := fun h => hk h.symm
      simp only [setEntries, hk', if_false, List.map_cons, List.countP_cons]
      have := ih h
      omega

/-- The number of values satisfying `p` after writing a new key. -/
theorem countP_set_of_none {d : Dict κ ν} (p : ν → Bool) {k : κ} (v : ν) (h : d.get? k = none) :
    (d.set k v).values.countP p = d.values.countP p + (p v).toNat :=
  countP_setEntries_of_none p v h

/-- The number of values satisfying `p` after overwriting a key. -/
theorem countP_set_of_some {d : Dict κ ν} (p : ν → Bool) {k : κ} {w : ν} (v : ν)
    (h : d.get? k = some w) :
    (d.set k v).values.countP p + (p w).toNat = d.values.countP p + (p v).toNat :=
  countP_setEntries_of_some p h

/-! ### Dictionaries filled in a loop -/

/-- The dictionary with the entries of a list; a later entry replaces an earlier one. -/
def ofList (es : List (κ × ν)) : Dict κ ν := es.foldl (fun d e => d.set e.1 e.2) ∅

/-- A key that is not there yet comes last. -/
theorem set_of_nodup_keys {d : Dict κ ν} {k : κ} {ks : List κ} (h : (d.keys ++ k :: ks).Nodup)
    (v : ν) : (d.set k v).entries = d.entries ++ [(k, v)] ∧ ((d.set k v).keys ++ ks).Nodup := by
  have hk : k ∉ d.keys := fun hmem => List.disjoint_of_nodup_append h hmem List.mem_cons_self
  have hset : (d.set k v).entries = d.entries ++ [(k, v)] := setEntries_of_notMem hk
  refine ⟨hset, ?_⟩
  rw [keys, hset, List.map_append, List.append_assoc]
  exact h

theorem entries_foldl_set {es : List (κ × ν)} {d : Dict κ ν}
    (h : (d.keys ++ es.map Prod.fst).Nodup) :
    (es.foldl (fun d e => d.set e.1 e.2) d).entries = d.entries ++ es := by
  induction es generalizing d with
  | nil => exact (List.append_nil _).symm
  | cons e es ih =>
    obtain ⟨k, v⟩ := e
    obtain ⟨hset, hrest⟩ := set_of_nodup_keys h v
    rw [List.foldl_cons, ih hrest, hset, List.append_assoc, List.singleton_append]

/-- Entries of different keys are those of their dictionary. -/
theorem entries_ofList {es : List (κ × ν)} (h : (es.map Prod.fst).Nodup) :
    (ofList es).entries = es :=
  entries_foldl_set (d := ∅) h

theorem get?_ofList {es : List (κ × ν)} (h : (es.map Prod.fst).Nodup) {k : κ} {v : ν}
    (hmem : (k, v) ∈ es) : (ofList es).get? k = some v := by
  rw [← mem_entries, entries_ofList h]
  exact hmem

/-- What a key has after a loop that sets entries comes from an entry, if it was not there. -/
theorem mem_of_get?_foldl_set {es : List (κ × ν)} {d : Dict κ ν} {k : κ} {v : ν}
    (h : (es.foldl (fun m e => m.set e.1 e.2) d).get? k = some v) :
    (k, v) ∈ es ∨ d.get? k = some v := by
  induction es generalizing d with
  | nil => exact .inr h
  | cons e es ih =>
    obtain hmem | hget := ih h
    · exact .inl (List.mem_cons_of_mem e hmem)
    · rw [get?_set] at hget
      split_ifs at hget with hk
      · left
        rw [hk, ← Option.some.inj hget]
        exact List.mem_cons_self
      · exact .inr hget

/-- A key whose entries agree has their value after a loop that sets them. -/
theorem get?_foldl_set_of_forall {es : List (κ × ν)} {d : Dict κ ν} {k : κ} {v : ν}
    (hall : ∀ e ∈ es, e.1 = k → e.2 = v) (hex : (∃ e ∈ es, e.1 = k) ∨ d.get? k = some v) :
    (es.foldl (fun m e => m.set e.1 e.2) d).get? k = some v := by
  induction es generalizing d with
  | nil => exact hex.resolve_left (by simp)
  | cons e es ih =>
    refine ih (fun e' he' => hall e' (List.mem_cons_of_mem e he')) ?_
    rw [get?_set]
    split_ifs with hk
    · rw [hall e List.mem_cons_self hk.symm]
      exact .inr rfl
    · obtain ⟨e', he', hk'⟩ | hget := hex
      · obtain rfl | he' := List.mem_cons.1 he'
        · exact absurd hk'.symm hk
        · exact .inl ⟨e', he', hk'⟩
      · exact .inr hget

end Dict

/-- A set: its elements in the order in which iteration visits them. -/
structure PySet (α : Type*) where
  toList : List α
  nodup : toList.Nodup
  deriving DecidableEq

namespace PySet

variable {α : Type*}

instance : EmptyCollection (PySet α) := ⟨⟨[], List.nodup_nil⟩⟩

instance : Inhabited (PySet α) := ⟨∅⟩

instance : Membership α (PySet α) := ⟨fun s a => a ∈ s.toList⟩

@[simp] theorem mem_toList {a : α} {s : PySet α} : a ∈ s.toList ↔ a ∈ s := Iff.rfl

@[simp] theorem notMem_empty (a : α) : a ∉ (∅ : PySet α) := List.not_mem_nil

theorem eq_empty_iff {s : PySet α} : s = ∅ ↔ ∀ a, a ∉ s := by
  obtain ⟨l, hl⟩ := s
  constructor
  · rintro h a ha
    rw [h] at ha
    exact notMem_empty a ha
  · intro h
    obtain rfl := List.eq_nil_iff_forall_not_mem.2 h
    rfl

/-- A non-empty set has an element. -/
theorem exists_mem_of_ne {s : PySet α} (h : s ≠ ∅) : ∃ a, a ∈ s := by
  by_contra hn
  exact h (eq_empty_iff.2 (not_exists.1 hn))

variable [DecidableEq α]

instance (a : α) (s : PySet α) : Decidable (a ∈ s) := inferInstanceAs (Decidable (a ∈ s.toList))

/-- The distinct elements of a list. -/
def ofList (l : List α) : PySet α := ⟨l.dedup, l.nodup_dedup⟩

/-- Add an element. -/
def insert (s : PySet α) (a : α) : PySet α := ⟨List.insert a s.toList, s.nodup.insert⟩

/-- Discard an element. -/
def erase (s : PySet α) (a : α) : PySet α := ⟨s.toList.erase a, s.nodup.erase a⟩

/-- Set difference. -/
def diff (s t : PySet α) : PySet α := ⟨s.toList.filter (· ∉ t), s.nodup.filter _⟩

/-- Set intersection. -/
def inter (s t : PySet α) : PySet α := ⟨s.toList.filter (· ∈ t), s.nodup.filter _⟩

/-- Set union. -/
def union (s t : PySet α) : PySet α := ⟨s.toList ∪ t.toList, t.nodup.union s.toList⟩

@[simp] theorem mem_ofList {a : α} {l : List α} : a ∈ ofList l ↔ a ∈ l := List.mem_dedup

@[simp] theorem mem_insert {a b : α} {s : PySet α} : a ∈ s.insert b ↔ a = b ∨ a ∈ s :=
  List.mem_insert_iff

@[simp] theorem mem_erase {a b : α} {s : PySet α} : a ∈ s.erase b ↔ a ≠ b ∧ a ∈ s :=
  s.nodup.mem_erase_iff

@[simp] theorem mem_diff {a : α} {s t : PySet α} : a ∈ s.diff t ↔ a ∈ s ∧ a ∉ t := by
  change a ∈ s.toList.filter (· ∉ t) ↔ _
  simp

@[simp] theorem mem_inter {a : α} {s t : PySet α} : a ∈ s.inter t ↔ a ∈ s ∧ a ∈ t := by
  change a ∈ s.toList.filter (· ∈ t) ↔ _
  simp

@[simp] theorem mem_union {a : α} {s t : PySet α} : a ∈ s.union t ↔ a ∈ s ∨ a ∈ t :=
  List.mem_union_iff

omit [DecidableEq α] in
/-- The elements of a set that a loop fills along with other things. -/
theorem mem_proj_foldl {σ β : Type*} (proj : σ → PySet α) {add : σ → β → σ} {P : β → α → Prop}
    (hadd : ∀ s b x, x ∈ proj (add s b) ↔ P b x ∨ x ∈ proj s) (l : List β) (s : σ) (x : α) :
    x ∈ proj (l.foldl add s) ↔ (∃ b ∈ l, P b x) ∨ x ∈ proj s := by
  induction l generalizing s with
  | nil => simp
  | cons b l ih =>
    rw [List.foldl_cons, ih, hadd, List.exists_mem_cons_iff, or_left_comm, or_assoc]

omit [DecidableEq α] in
/-- The elements of a set that a loop fills. -/
theorem mem_foldl {β : Type*} {add : PySet α → β → PySet α} {P : β → α → Prop}
    (hadd : ∀ s b x, x ∈ add s b ↔ P b x ∨ x ∈ s) (l : List β) (s : PySet α) (x : α) :
    x ∈ l.foldl add s ↔ (∃ b ∈ l, P b x) ∨ x ∈ s :=
  mem_proj_foldl id hadd l s x

theorem mem_foldl_insert {x : α} {l : List α} {s : PySet α} :
    x ∈ l.foldl insert s ↔ x ∈ s ∨ x ∈ l := by
  have hinsert : ∀ (s : PySet α) (b y : α), y ∈ s.insert b ↔ y = b ∨ y ∈ s :=
    fun _ _ _ => mem_insert
  rw [mem_foldl hinsert, or_comm]
  simp

end PySet

/-! ## Folds over keyed items -/

section Folds

variable {σ α κ β : Type*} [DecidableEq κ] {step : σ → α → σ} (key : α → κ) (view : σ → κ → β)
  (write : α → β → β) (Inv : σ → Prop) {l : List α} {a : α} {k : κ} {s : σ}

omit [DecidableEq κ] in
/-- What every turn of a fold keeps, the fold keeps. -/
theorem foldl_invariant (hinv : ∀ s a, Inv s → Inv (step s a)) (hs : Inv s) :
    Inv (l.foldl step s) := by
  induction l generalizing s with
  | nil => exact hs
  | cons a l ih => exact ih (hinv s a hs)

/-- A fold whose turns write what is seen at the key of their item alone, seen at another key. -/
theorem foldl_view_of_notMem (hinv : ∀ s a, Inv s → Inv (step s a))
    (hstep : ∀ s a k, Inv s →
      view (step s a) k = if k = key a then write a (view s k) else view s k)
    (hs : Inv s) (hk : k ∉ l.map key) : view (l.foldl step s) k = view s k := by
  induction l generalizing s with
  | nil => rfl
  | cons a l ih =>
    rw [List.map_cons, List.mem_cons, not_or] at hk
    rw [List.foldl_cons, ih (hinv s a hs) hk.2, hstep s a k hs, if_neg hk.1]

/-- **A fold over items with distinct keys writes each item once.** -/
theorem foldl_view_of_mem (hinv : ∀ s a, Inv s → Inv (step s a))
    (hstep : ∀ s a k, Inv s →
      view (step s a) k = if k = key a then write a (view s k) else view s k)
    (hs : Inv s) (hl : (l.map key).Nodup) (ha : a ∈ l) :
    view (l.foldl step s) (key a) = write a (view s (key a)) := by
  induction l generalizing s with
  | nil => cases ha
  | cons b l ih =>
    rw [List.map_cons, List.nodup_cons] at hl
    rw [List.foldl_cons]
    rcases List.mem_cons.1 ha with rfl | hmem
    · rw [foldl_view_of_notMem key view write Inv hinv hstep (hinv s a hs) hl.1,
        hstep s a _ hs, if_pos rfl]
    · have hne : key a ≠ key b := fun he => hl.1 (he ▸ List.mem_map_of_mem hmem)
      rw [ih (hinv s b hs) hl.2 hmem, hstep s b _ hs, if_neg hne]

end Folds

/-! ## Batches -/

section Batches

variable {α : Type*}

theorem flatten_toChunks_go (n : ℕ) (l : List α) (acc : Array α) (accs : Array (List α)) :
    (List.toChunks.go n l acc accs).flatten = accs.toList.flatten ++ (acc.toList ++ l) := by
  induction l generalizing acc accs with
  | nil => simp [List.toChunks.go]
  | cons a l ih =>
    rw [List.toChunks.go]
    split_ifs
    · rw [ih]
      simp
    · rw [ih]
      simp

theorem flatten_toChunks (n : ℕ) (l : List α) : (l.toChunks n).flatten = l := by
  cases l with
  | nil => cases n <;> rfl
  | cons a l =>
    cases n with
    | zero => exact List.append_nil _
    | succ n =>
      rw [List.toChunks, flatten_toChunks_go]
      · rfl
      · simp

end Batches

/-! ## Loops that may raise -/

section Traversals

variable {α β ε : Type} {f : α → Except ε β} {l : List α} {l' : List β}

/-- What a list made by `mapM` consists of. -/
theorem forall₂_of_mapM (h : l.mapM f = .ok l') : List.Forall₂ (fun a b => f a = .ok b) l l' := by
  induction l generalizing l' with
  | nil =>
    obtain rfl := Except.ok.inj h
    exact .nil
  | cons a l ih =>
    rw [List.mapM_cons] at h
    cases ha : f a with
    | error e => rw [ha] at h; cases h
    | ok b =>
      cases hl : l.mapM f with
      | error e => rw [ha, hl] at h; cases h
      | ok bs =>
        rw [ha, hl] at h
        obtain rfl := Except.ok.inj h
        exact .cons ha (ih hl)

/-- A loop raises unless every turn returns. -/
theorem exists_of_mapM (h : l.mapM f = .ok l') {a : α} (ha : a ∈ l) : ∃ b, f a = .ok b := by
  have hall := forall₂_of_mapM h
  clear h
  induction hall with
  | nil => cases ha
  | cons hab _ ih =>
    rcases List.mem_cons.1 ha with rfl | ha
    · exact ⟨_, hab⟩
    · exact ih ha

/-- A loop whose turns all return collects what they return. -/
theorem mapM_of_forall (h : ∀ a ∈ l, ∃ b, f a = .ok b) :
    l.mapM f = .ok (l.filterMap fun a => (f a).toOption) := by
  induction l with
  | nil => rfl
  | cons a l ih =>
    obtain ⟨b, hb⟩ := h a List.mem_cons_self
    rw [List.mapM_cons, hb, ih fun c hc => h c (List.mem_cons_of_mem a hc),
      List.filterMap_cons_some (b := b) (by rw [hb]; rfl)]
    rfl

end Traversals

/-- What a loop collects if every turn has a value. -/
theorem mapM_eq_some_iff {α β : Type*} {f : α → Option β} {l : List α} {l' : List β} :
    l.mapM f = some l' ↔ l.map f = l'.map some := by
  induction l generalizing l' with
  | nil => cases l' <;> simp
  | cons a l ih =>
    simp only [List.mapM_cons, Option.bind_eq_bind, Option.bind_eq_some_iff, Option.pure_def,
      Option.some.injEq, List.map_cons]
    constructor
    · rintro ⟨b, hb, bs, hbs, rfl⟩
      rw [hb, ih.1 hbs, List.map_cons]
    · intro h
      cases l' with
      | nil => cases h
      | cons b bs =>
        obtain ⟨hb, hbs⟩ := List.cons.inj h
        exact ⟨b, hb, bs, ih.2 hbs, rfl⟩

end Aidars
