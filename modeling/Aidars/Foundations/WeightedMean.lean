import Mathlib.Algebra.Order.Field.Basic
import Mathlib.Algebra.BigOperators.Ring.List
import Mathlib.Data.List.GetD
import Mathlib.Data.List.MinMax
import Mathlib.Data.List.Perm.Basic
import Mathlib.Tactic.Linarith
import Mathlib.Tactic.Ring

/-!
# Weighted means

Values come with weights: `total` is the weighted sum, `weight` the sum of the weights and `mean`
the quotient of the two. A mean of values whose weights are not negative lies between two of them
(`between_mean`). Where only some of the values are there (`present`), and these have all of the
weight, the weighted sum is theirs whatever stands in for the others (`total_standIn`).

`accumulate` adds a weighted row to a list of sums, place by place: `getElem?_accumulateAll` says
what the sums are in the end, and `accumulateAll_perm` that the order of the rows does not matter.
-/

namespace Aidars

namespace WeightedMean

variable {K : Type*} [Field K]

/-- The weighted sum of some values. -/
def total (xs : List (K × K)) : K := (xs.map fun x => x.1 * x.2).sum

/-- The sum of the weights. -/
def weight {E : Type*} (xs : List (E × K)) : K := (xs.map Prod.snd).sum

/-- The weighted mean of some values. -/
def mean (xs : List (K × K)) : K := total xs / weight xs

@[simp] theorem total_cons (x : K × K) (xs : List (K × K)) :
    total (x :: xs) = x.1 * x.2 + total xs := by
  simp [total]

@[simp] theorem weight_cons {E : Type*} (x : E × K) (xs : List (E × K)) :
    weight (x :: xs) = x.2 + weight xs := by
  simp [weight]

theorem total_perm {xs ys : List (K × K)} (h : xs.Perm ys) : total xs = total ys :=
  (h.map _).sum_eq

/-- The mean of values of weight one is their weighted sum. -/
theorem mean_eq_total {xs : List (K × K)} (h : weight xs = 1) : mean xs = total xs := by
  rw [mean, h, div_one]

/-! ## Weights in proportion -/

/-- Weights are in proportion to others: there is one at most, the others are all zero, or they are
the others up to a common factor. -/
def InProportion (ws : List (K × K)) : Prop :=
  ws.length ≤ 1 ∨ (∀ w ∈ ws, w.2 = 0) ∨ ∃ k, k ≠ 0 ∧ ∀ w ∈ ws, w.1 = k * w.2

/-- A common factor does not matter. -/
theorem inProportion_mul {ws : List (K × K)} {c : K} (hc : c ≠ 0) :
    InProportion (ws.map fun w => (c * w.1, w.2)) ↔ InProportion ws := by
  simp only [InProportion, List.length_map, List.forall_mem_map]
  refine or_congr Iff.rfl (or_congr Iff.rfl ?_)
  constructor
  · rintro ⟨k, hk, h⟩
    refine ⟨c⁻¹ * k, mul_ne_zero (inv_ne_zero hc) hk, fun w hw => ?_⟩
    rw [mul_assoc, ← h w hw, inv_mul_cancel_left₀ hc]
  · rintro ⟨k, hk, h⟩
    refine ⟨c * k, mul_ne_zero hc hk, fun w hw => ?_⟩
    rw [h w hw, mul_assoc]

section Order

variable [LinearOrder K] [IsStrictOrderedRing K]

theorem total_le {xs : List (K × K)} (h : ∀ x ∈ xs, 0 ≤ x.2) {b : K} (hb : ∀ x ∈ xs, x.1 ≤ b) :
    total xs ≤ b * weight xs := by
  induction xs with
  | nil => simp [total, weight]
  | cons x xs ih =>
    obtain ⟨hx, hxs⟩ := List.forall_mem_cons.mp h
    obtain ⟨hbx, hbxs⟩ := List.forall_mem_cons.mp hb
    rw [total_cons, weight_cons, mul_add]
    exact add_le_add (mul_le_mul_of_nonneg_right hbx hx) (ih hxs hbxs)

theorem le_total {xs : List (K × K)} (h : ∀ x ∈ xs, 0 ≤ x.2) {b : K} (hb : ∀ x ∈ xs, b ≤ x.1) :
    b * weight xs ≤ total xs := by
  induction xs with
  | nil => simp [total, weight]
  | cons x xs ih =>
    obtain ⟨hx, hxs⟩ := List.forall_mem_cons.mp h
    obtain ⟨hbx, hbxs⟩ := List.forall_mem_cons.mp hb
    rw [total_cons, weight_cons, mul_add]
    exact add_le_add (mul_le_mul_of_nonneg_right hbx hx) (ih hxs hbxs)

/-- **A mean lies between two of the values.** -/
theorem between_mean {xs : List (K × K)} (h : ∀ x ∈ xs, 0 ≤ x.2) (hpos : 0 < weight xs) :
    (∃ x ∈ xs, x.1 ≤ mean xs) ∧ ∃ x ∈ xs, mean xs ≤ x.1 := by
  have hne : xs ≠ [] := by
    rintro rfl
    simp [weight] at hpos
  obtain ⟨least, hleast⟩ : ∃ x, x ∈ xs.argmin Prod.fst :=
    Option.ne_none_iff_exists'.mp (mt List.argmin_eq_none.mp hne)
  obtain ⟨most, hmost⟩ : ∃ x, x ∈ xs.argmax Prod.fst :=
    Option.ne_none_iff_exists'.mp (mt List.argmax_eq_none.mp hne)
  have hmin : least.1 * weight xs ≤ total xs :=
    le_total h fun x hx => List.le_of_mem_argmin hx hleast
  have hmax : total xs ≤ most.1 * weight xs :=
    total_le h fun x hx => List.le_of_mem_argmax hx hmost
  exact ⟨⟨least, List.argmin_mem hleast, (le_div_iff₀ hpos).mpr hmin⟩,
    ⟨most, List.argmax_mem hmost, (div_le_iff₀ hpos).mpr hmax⟩⟩

end Order

/-! ## Values that are there for some only -/

section Present

variable {E : Type*} {f : E → Option K}

/-- The values that are there, with their weights. -/
def present (f : E → Option K) (col : List (E × K)) : List (K × K) :=
  col.filterMap fun e => (f e.1).map fun x => (x, e.2)

/-- The values, with something in place of those that are not there. -/
def standIn {B : Type*} (f : E → Option B) (fill : E → B) (col : List (E × K)) : List (B × K) :=
  col.map fun e => ((f e.1).getD (fill e.1), e.2)

@[simp] theorem weight_standIn {B : Type*} (f : E → Option B) (fill : E → B)
    (col : List (E × K)) : weight (standIn f fill col) = weight col := by
  rw [weight, standIn, List.map_map]
  rfl

omit [Field K] in
theorem mem_present {col : List (E × K)} {x : K × K} :
    x ∈ present f col ↔ ∃ e ∈ col, f e.1 = some x.1 ∧ e.2 = x.2 := by
  obtain ⟨x, w⟩ := x
  simp [present]

omit [Field K] in
/-- Where the value that stands in is there, nothing but values that are there is counted. -/
theorem mem_standIn {col : List (E × K)} {fill : K} (hfill : ∃ x ∈ present f col, x.1 = fill)
    {y : K × K} (hy : y ∈ standIn f (fun _ => fill) col) : ∃ x ∈ present f col, x.1 = y.1 := by
  obtain ⟨e, he, rfl⟩ := List.mem_map.mp hy
  cases hf : f e.1 with
  | none => exact hfill
  | some x => exact ⟨(x, e.2), mem_present.mpr ⟨e, he, hf, rfl⟩, rfl⟩

omit [Field K] in
theorem present_cons (e : E × K) (col : List (E × K)) :
    present f (e :: col) = ((f e.1).map fun x => (x, e.2)).toList ++ present f col := by
  cases h : f e.1 <;> simp [present, h]

variable [LinearOrder K] [IsStrictOrderedRing K]

omit [IsStrictOrderedRing K] in
theorem nonneg_present {col : List (E × K)} (h : ∀ e ∈ col, 0 ≤ e.2) :
    ∀ x ∈ present f col, 0 ≤ x.2 := by
  intro x hx
  obtain ⟨e, he, -, hw⟩ := mem_present.mp hx
  exact hw ▸ h e he

theorem weight_present_le {col : List (E × K)} (h : ∀ e ∈ col, 0 ≤ e.2) :
    weight (present f col) ≤ weight col := by
  induction col with
  | nil => exact le_refl _
  | cons e col ih =>
    obtain ⟨he, hcol⟩ := List.forall_mem_cons.mp h
    rw [present_cons, weight_cons]
    cases f e.1 with
    | none => exact (ih hcol).trans (by linarith)
    | some x => simpa using ih hcol

/-- **Where the values that are there have all of the weight**, what stands in for the others does
not count. -/
theorem total_standIn {col : List (E × K)} (h : ∀ e ∈ col, 0 ≤ e.2)
    (hall : weight (present f col) = weight col) (fill : E → K) :
    total (standIn f fill col) = total (present f col) := by
  induction col with
  | nil => rfl
  | cons e col ih =>
    obtain ⟨he, hcol⟩ := List.forall_mem_cons.mp h
    have hle : weight (present f col) ≤ weight col := weight_present_le hcol
    rw [present_cons, weight_cons] at hall
    rw [present_cons, standIn, List.map_cons, total_cons, ← standIn]
    cases hf : f e.1 with
    | none =>
      simp only [hf, Option.map_none, Option.toList_none, List.nil_append] at hall
      have hzero : e.2 = 0 := by linarith
      have hrest : weight (present f col) = weight col := by linarith
      simp [hzero, ih hcol hrest]
    | some x =>
      simp only [hf, Option.map_some, Option.toList_some, List.singleton_append, weight_cons,
        add_right_inj] at hall
      simp [ih hcol hall]

end Present

/-! ## Values that must all be there -/

section Gather

variable {E B C : Type*} {f : E → Option B}

/-- The values with their weights, if all of them are there. -/
def gather (f : E → Option B) (col : List (E × K)) : Option (List (B × K)) :=
  col.mapM fun e => (f e.1).map fun b => (b, e.2)

omit [Field K] in
theorem gather_cons (e : E × K) (col : List (E × K)) :
    gather f (e :: col) = (f e.1).bind fun b => (gather f col).map ((b, e.2) :: ·) := by
  rw [gather, List.mapM_cons, ← gather]
  cases f e.1 <;> cases gather f col <;> rfl

omit [Field K] in
theorem exists_gather {col : List (E × K)} :
    (∃ rows, gather f col = some rows) ↔ ∀ e ∈ col, ∃ b, f e.1 = some b := by
  induction col with
  | nil => simp [gather]
  | cons e col ih =>
    rw [List.forall_mem_cons, ← ih, gather_cons]
    cases f e.1 <;> simp [Option.map_eq_some_iff]

omit [Field K] in
theorem exists_map_gather {col : List (E × K)} {g : List (B × K) → C} :
    (∃ c, (gather f col).map g = some c) ↔ ∀ e ∈ col, ∃ b, f e.1 = some b := by
  rw [← exists_gather]
  cases gather f col <;> simp

omit [Field K] in
theorem eq_of_gather {col : List (E × K)} {rows : List (B × K)} (h : gather f col = some rows)
    (fill : E → B) : rows = standIn f fill col := by
  induction col generalizing rows with
  | nil => simpa [gather, standIn] using h.symm
  | cons e col ih =>
    rw [gather_cons, Option.bind_eq_some_iff] at h
    obtain ⟨b, hb, h⟩ := h
    obtain ⟨rest, hrest, rfl⟩ := Option.map_eq_some_iff.mp h
    rw [ih hrest, standIn, standIn, List.map_cons, hb, Option.getD_some]

omit [Field K] in
theorem gather_congr {g : E → Option B} {col : List (E × K)} (h : ∀ e ∈ col, f e.1 = g e.1) :
    gather f col = gather g col := by
  induction col with
  | nil => rfl
  | cons e col ih =>
    obtain ⟨he, hcol⟩ := List.forall_mem_cons.mp h
    rw [gather_cons, gather_cons, he, ih hcol]

omit [Field K] in
/-- What the order of the values does not matter for, the order of who gives them does not. -/
theorem map_gather_perm {col col' : List (E × K)} (hperm : col.Perm col') {g : List (B × K) → C}
    (hg : ∀ {rows rows'}, rows.Perm rows' → g rows = g rows') :
    (gather f col).map g = (gather f col').map g := by
  cases h : gather f col with
  | none =>
    cases h' : gather f col' with
    | none => rfl
    | some rows' =>
      have hall := exists_gather.mp ⟨rows', h'⟩
      obtain ⟨rows, hrows⟩ := exists_gather.mpr fun e he => hall e (hperm.mem_iff.mp he)
      simp [hrows] at h
  | some rows =>
    have hall := exists_gather.mp ⟨rows, h⟩
    obtain ⟨rows', h'⟩ := exists_gather.mpr fun e he => hall e (hperm.mem_iff.mpr he)
    rw [h', Option.map_some, Option.map_some]
    cases col with
    | nil =>
      obtain rfl := hperm.nil_eq
      rw [Option.some.inj (h.symm.trans h')]
    | cons e col =>
      obtain ⟨b, -⟩ := hall e (by simp)
      rw [eq_of_gather h fun _ => b, eq_of_gather h' fun _ => b]
      exact congrArg some (hg (hperm.map _))

end Gather

/-! ## Sums of rows -/

/-- Add a weighted row to a list of sums: a sum the row has no value for is left as it is. -/
def accumulate (accum : List K) (row : List K × K) : List K :=
  accum.mapIdx fun i a => match row.1[i]? with
    | none => a
    | some x => a + x * row.2

/-- The sums of some weighted rows, as many as asked for. -/
def accumulateAll (length : ℕ) (rows : List (List K × K)) : List K :=
  rows.foldl accumulate (List.replicate length 0)

theorem getElem?_accumulate (accum : List K) (row : List K × K) (i : ℕ) :
    (accumulate accum row)[i]? = accum[i]?.map (· + row.1.getD i 0 * row.2) := by
  rw [accumulate, List.getElem?_mapIdx, List.getD_eq_getElem?_getD]
  cases row.1[i]? <;> simp

theorem getElem?_foldl_accumulate (rows : List (List K × K)) (accum : List K) (i : ℕ) :
    (rows.foldl accumulate accum)[i]? =
      accum[i]?.map (· + total (rows.map fun row => (row.1.getD i 0, row.2))) := by
  induction rows generalizing accum with
  | nil => simp [total]
  | cons row rows ih =>
    rw [List.foldl_cons, ih, getElem?_accumulate, Option.map_map, List.map_cons, total_cons]
    congr 1
    funext a
    simp [add_assoc]

/-- What the sums are in the end. -/
theorem getElem?_accumulateAll (length : ℕ) (rows : List (List K × K)) (i : ℕ) :
    (accumulateAll length rows)[i]? =
      if i < length then some (total (rows.map fun row => (row.1.getD i 0, row.2))) else none := by
  rw [accumulateAll, getElem?_foldl_accumulate, List.getElem?_replicate]
  split <;> simp

@[simp] theorem length_accumulateAll (length : ℕ) (rows : List (List K × K)) :
    (accumulateAll length rows).length = length := by
  have hfold : ∀ accum : List K, (rows.foldl accumulate accum).length = accum.length := by
    induction rows with
    | nil => simp
    | cons row rows ih =>
      intro accum
      rw [List.foldl_cons, ih, accumulate, List.length_mapIdx]
  rw [accumulateAll, hfold, List.length_replicate]

/-- A sum is the weighted sum of what has its place in the rows. -/
theorem eq_total_of_accumulateAll {E : Type*} {f : E → Option (List K)} {col : List (E × K)}
    {rows : List (List K × K)} (h : gather f col = some rows) {length i : ℕ} {x : K}
    (hx : (accumulateAll length rows)[i]? = some x) :
    x = total (standIn (fun e => (f e).bind fun row => row[i]?) (fun _ => 0) col) := by
  have hall := exists_gather.mp ⟨rows, h⟩
  rw [getElem?_accumulateAll, Option.ite_none_right_eq_some] at hx
  rw [← Option.some.inj hx.2, eq_of_gather h fun _ => [], standIn, standIn, List.map_map]
  congr 1
  apply List.map_congr_left
  intro e he
  obtain ⟨row, hrow⟩ := hall e he
  simp [hrow, List.getD_eq_getElem?_getD]

/-- The order of the rows does not matter. -/
theorem accumulateAll_perm {rows rows' : List (List K × K)} (h : rows.Perm rows')
    (length : ℕ) : accumulateAll length rows = accumulateAll length rows' := by
  apply List.ext_getElem?
  intro i
  rw [getElem?_accumulateAll, getElem?_accumulateAll, total_perm (h.map _)]

end WeightedMean

end Aidars
