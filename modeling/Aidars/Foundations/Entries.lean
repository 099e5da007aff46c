import Aidars.Foundations.Collections
import Mathlib.Algebra.Order.BigOperators.Group.List
import Mathlib.Algebra.Order.Ring.Nat

/-!
# The entries of a dictionary, in any order

Up to the order of the entries a dictionary is what is left without a key, and the entry at that key
(`perm_erase`, `perm_set`). `total` adds up a weight of the values. `mapValuesM` fills a dictionary
from the entries of another by a loop that may raise.
-/

namespace Aidars.Dict

variable {κ ν : Type*} [DecidableEq κ] {d d' : Dict κ ν} {k : κ} {v w : ν} {f : ν → ℕ}

theorem erase_of_none (h : d.get? k = none) : d.erase k = d := by
  refine ext_entries (List.filter_eq_self.mpr fun e he => decide_eq_true ?_)
  rintro rfl
  exact absurd (mem_entries.mp he) (by simp [h])

/-- Changing a value first makes no difference to its removal. -/
theorem erase_modify (d : Dict κ ν) (k : κ) (g : ν → ν) : (d.modify k g).erase k = d.erase k := by
  refine ext_keys ?_ fun k' => ?_
  · have hkeys (d : Dict κ ν) : (d.erase k).keys = d.keys.filter (· ≠ k) := by
      rw [keys, keys, List.filter_map]
      rfl
    rw [hkeys, hkeys, keys_modify]
  · rw [get?_erase, get?_erase, get?_modify]
    split_ifs <;> rfl

/-- Two changes of a value are one. -/
theorem modify_modify (d : Dict κ ν) (k : κ) (g g' : ν → ν) :
    (d.modify k g).modify k g' = d.modify k (g' ∘ g) := by
  refine ext_keys (by simp) fun k' => ?_
  simp only [get?_modify]
  split_ifs <;> simp [Option.map_map]

/-- A change that leaves the value as it is. -/
theorem modify_eq_self {g : ν → ν} (h : ∀ v, d.get? k = some v → g v = v) : d.modify k g = d := by
  refine ext_keys (by simp) fun k' => ?_
  rw [get?_modify]
  split_ifs with hk
  · rw [hk]
    cases hv : d.get? k with
    | none => rfl
    | some v => rw [Option.map_some, h v hv]
  · rfl

omit [DecidableEq κ] in
theorem nodup_entries (d : Dict κ ν) : d.entries.Nodup := d.nodup.of_map

/-- Without a key there is one entry less. -/
theorem perm_erase (h : d.get? k = some v) : d.entries.Perm ((k, v) :: (d.erase k).entries) := by
  refine (List.perm_ext_iff_of_nodup d.nodup_entries ?_).mpr fun e => ?_
  · refine List.nodup_cons.mpr ⟨fun hmem => ?_, nodup_entries _⟩
    have hget := mem_entries.mp hmem
    simp at hget
  · obtain ⟨k', v'⟩ := e
    rw [List.mem_cons, mem_entries, mem_entries, get?_erase, Prod.mk.injEq]
    by_cases hk : k' = k
    · simp [hk, h, eq_comm]
    · simp [hk]

/-- Without a key it does not matter that the key was set. -/
theorem erase_set (d : Dict κ ν) (k : κ) (v : ν) : (d.set k v).erase k = d.erase k := by
  refine ext_entries ?_
  have hfilter : ∀ l : List (κ × ν), (setEntries k v l).filter (fun e => decide (e.1 ≠ k)) =
      l.filter fun e => decide (e.1 ≠ k) := by
    intro l
    induction l with
    | nil => simp [setEntries]
    | cons e l ih =>
      obtain ⟨k', v'⟩ := e
      rw [setEntries]
      split_ifs with hk
      · simp [hk]
      · rw [List.filter_cons, List.filter_cons, ih]
  exact hfilter d.entries

theorem perm_set (d : Dict κ ν) (k : κ) (v : ν) :
    (d.set k v).entries.Perm ((k, v) :: (d.erase k).entries) := by
  rw [← erase_set]
  exact perm_erase (by simp)

/-- The last value that is set counts. -/
theorem set_set (d : Dict κ ν) (k : κ) (v w : ν) : (d.set k v).set k w = d.set k w := by
  have hentries : ∀ l : List (κ × ν), setEntries k w (setEntries k v l) = setEntries k w l := by
    intro l
    induction l with
    | nil => simp [setEntries]
    | cons e l ih =>
      obtain ⟨k', v'⟩ := e
      rw [setEntries, setEntries]
      split_ifs with hk
      · simp [setEntries]
      · simp [setEntries, hk, ih]
  exact ext_entries (hentries d.entries)

/-- A value that is set and then changed. -/
theorem modify_set (d : Dict κ ν) (k : κ) (v : ν) (g : ν → ν) :
    (d.set k v).modify k g = d.set k (g v) := by
  rw [modify, get?_set, if_pos rfl]
  exact set_set d k v (g v)

/-! ## Weights -/

variable {f f' : κ → ν → ℕ}

/-- The sum of the weights of the entries. -/
def total (f : κ → ν → ℕ) (d : Dict κ ν) : ℕ := (d.entries.map fun e => f e.1 e.2).sum

theorem total_erase (h : d.get? k = some v) : d.total f = f k v + (d.erase k).total f := by
  rw [total, ((perm_erase h).map _).sum_eq, List.map_cons, List.sum_cons, total]

theorem total_set (d : Dict κ ν) (k : κ) (v : ν) :
    (d.set k v).total f = f k v + (d.erase k).total f := by
  rw [total, ((perm_set d k v).map _).sum_eq, List.map_cons, List.sum_cons, total]

theorem total_erase_le (d : Dict κ ν) (k : κ) : (d.erase k).total f ≤ d.total f := by
  cases h : d.get? k with
  | none => rw [erase_of_none h]
  | some v =>
    rw [total_erase h]
    exact Nat.le_add_left _ _

/-- A change that keeps the weight. -/
theorem total_modify {g : ν → ν} (h : ∀ v, f k (g v) = f k v) (d : Dict κ ν) :
    (d.modify k g).total f = d.total f := by
  cases hv : d.get? k with
  | none =>
    rw [modify, hv]
  | some v =>
    have hg : (d.modify k g).get? k = some (g v) := by simp [hv]
    rw [total_erase hg, total_erase hv, erase_modify, h]

theorem total_congr (h : ∀ k v, d.get? k = some v → f k v = f' k v) : d.total f = d.total f' := by
  refine congrArg List.sum (List.map_congr_left fun e he => ?_)
  exact h e.1 e.2 (mem_entries.mp he)

theorem total_eq_zero (h : ∀ k v, d.get? k = some v → f k v = 0) : d.total f = 0 := by
  refine List.sum_eq_zero fun n hn => ?_
  obtain ⟨e, he, rfl⟩ := List.mem_map.mp hn
  exact h e.1 e.2 (mem_entries.mp he)

theorem total_eq_sum_keys (f : κ → ν → ℕ) (d : Dict κ ν) :
    d.total f = (d.keys.map fun k => (d.get? k).elim 0 (f k)).sum := by
  rw [total, keys, List.map_map]
  refine congrArg List.sum (List.map_congr_left fun e he => ?_)
  rw [Function.comp_apply, mem_entries.mp he, Option.elim_some]

/-- The weight of a dictionary is that of what a smaller one keeps and that of what it lacks. -/
theorem total_eq_add (h : ∀ k w, d'.get? k = some w → ∃ v, d.get? k = some v ∧ f k v = f' k w) :
    d.total f = d'.total f' + d.total fun k v => if (d'.get? k).isNone then f k v else 0 := by
  have hkept : (d.keys.filter fun k => (d'.get? k).isSome).Perm d'.keys := by
    refine (List.perm_ext_iff_of_nodup (d.nodup.filter _) d'.nodup).mpr fun k => ?_
    change k ∈ d.keys.filter _ ↔ k ∈ d'.keys
    rw [List.mem_filter, mem_keys, Option.isSome_iff_exists]
    constructor
    · exact fun hk => mem_keys.mpr hk.2
    · intro hk
      obtain ⟨w, hw⟩ := mem_keys.mp hk
      obtain ⟨v, hv, -⟩ := h k w hw
      exact ⟨⟨v, hv⟩, w, hw⟩
  have hsame : d'.total f' = (d'.keys.map fun k => (d.get? k).elim 0 (f k)).sum := by
    rw [total_eq_sum_keys]
    refine congrArg List.sum (List.map_congr_left fun k hk => ?_)
    obtain ⟨w, hw⟩ := mem_keys.mp hk
    obtain ⟨v, hv, hweight⟩ := h k w hw
    rw [hw, hv, Option.elim_some, Option.elim_some, hweight]
  rw [hsame, ← (hkept.map _).sum_eq, total_eq_sum_keys, total_eq_sum_keys]
  generalize d.keys = ks
  induction ks with
  | nil => rfl
  | cons k ks ih =>
    rw [List.map_cons, List.sum_cons, ih, List.map_cons, List.sum_cons, List.filter_cons]
    cases hk : d'.get? k <;> cases hv : d.get? k <;> simp [hv] <;> omega

/-! ## Loops that may raise -/

section Traverse

variable {ν' : Type*} {g : κ → ν → Option ν'}

/-- A dictionary filled by a loop over the entries of another. -/
def mapValuesM (d : Dict κ ν) (g : κ → ν → Option ν') : Option (Dict κ ν') :=
  d.entries.foldlM (fun r e => (g e.1 e.2).map (r.set e.1)) ∅

/-- What such a loop adds to a dictionary. -/
theorem exists_entries_of_foldlM_set {es : List (κ × ν)} {r r' : Dict κ ν'}
    (hdistinct : (r.keys ++ es.map Prod.fst).Nodup)
    (h : es.foldlM (fun r e => (g e.1 e.2).map (r.set e.1)) r = some r') :
    ∃ es', r'.entries = r.entries ++ es' ∧ es'.map Prod.fst = es.map Prod.fst ∧
      ∀ e ∈ es, ∃ v', g e.1 e.2 = some v' ∧ (e.1, v') ∈ es' := by
  induction es generalizing r with
  | nil =>
    obtain rfl := Option.some.inj h
    exact ⟨[], (List.append_nil _).symm, rfl, by simp⟩
  | cons e es ih =>
    obtain ⟨k, v⟩ := e
    rw [List.foldlM_cons] at h
    obtain ⟨r₁, hset, hrest⟩ := Option.bind_eq_some_iff.mp h
    obtain ⟨v', hv', rfl⟩ := Option.map_eq_some_iff.mp hset
    obtain ⟨hentries, hdistinct'⟩ := set_of_nodup_keys hdistinct v'
    obtain ⟨es', hes', hfst, hall⟩ := ih hdistinct' hrest
    refine ⟨(k, v') :: es', ?_, by rw [List.map_cons, List.map_cons, hfst], ?_⟩
    · rw [hes', hentries, List.append_assoc, List.singleton_append]
    · rw [List.forall_mem_cons]
      refine ⟨⟨v', hv', List.mem_cons_self⟩, fun e he => ?_⟩
      obtain ⟨w, hw, hmem⟩ := hall e he
      exact ⟨w, hw, List.mem_cons_of_mem _ hmem⟩

theorem of_mapValuesM {d : Dict κ ν} {r : Dict κ ν'} (h : d.mapValuesM g = some r) :
    r.keys = d.keys ∧ ∀ k v, d.get? k = some v → ∃ v', g k v = some v' ∧ r.get? k = some v' := by
  obtain ⟨es', hentries, hfst, hall⟩ := exists_entries_of_foldlM_set (r := ∅) d.nodup h
  replace hentries : r.entries = es' := hentries
  refine ⟨by rw [keys, hentries, hfst]; rfl, fun k v hv => ?_⟩
  obtain ⟨v', hv', hmem⟩ := hall (k, v) (mem_entries.mpr hv)
  exact ⟨v', hv', mem_entries.mp (hentries ▸ hmem)⟩

/-- Such a loop returns if every turn does. -/
theorem exists_mapValuesM {d : Dict κ ν} (h : ∀ k v, d.get? k = some v → ∃ v', g k v = some v') :
    ∃ r, d.mapValuesM g = some r := by
  have hall : ∀ e ∈ d.entries, ∃ v', g e.1 e.2 = some v' := fun e he => h _ _ (mem_entries.mp he)
  rw [mapValuesM]
  generalize d.entries = es at hall
  generalize (∅ : Dict κ ν') = r
  induction es generalizing r with
  | nil => exact ⟨r, rfl⟩
  | cons e es ih =>
    obtain ⟨⟨v', hv'⟩, hrest⟩ := List.forall_mem_cons.mp hall
    rw [List.foldlM_cons, hv']
    exact ih hrest (r.set e.1 v')

end Traverse

end Aidars.Dict
