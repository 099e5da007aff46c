import Aidars.Foundations.Entries
import Aidars.Foundations.Tensor
import Aidars.Foundations.WeightedMean
import Mathlib.Algebra.CharZero.Defs
import Mathlib.Data.Int.Cast.Field
import Mathlib.Data.Rat.Floor

/-!
# Synchronization rounds

In a round each worker trains from the current checkpoint, and `aggregateValidUpdates` moves the
checkpoint by the weighted mean of what the workers changed, without the updates in which a number
is not finite.

The loop that leaves updates out keeps checkpoints and counts aligned (`validUpdates_eq`), so an
aggregate is one of the pairs that are left (`aggregateValidUpdates_eq`) and does not depend on the
others or on the order (`aggregated_congr`). `aggregate_entries` is the formula, and `rounds_idle`
the consequence for workers that do not train: round by round the checkpoint stays what it is.
-/

namespace Aidars.Training

open WeightedMean

variable {K : Type*}

/-! ## Arrays -/

/-- The types of arrays, by what becomes of a number that is converted to one. -/
structure NumpyTypes (K : Type*) where
  /-- `x.astype(dtype)`. -/
  astype : String → K → K
  /-- Numbers of a type are not changed by another conversion to it. -/
  astype_astype : ∀ dtype x, astype dtype (astype dtype x) = astype dtype x

/-- An array: its entries are numbers of its type. -/
structure NumpyArray (T : NumpyTypes K) where
  dtype : String
  tensor : Tensor K
  typed : ∀ x ∈ tensor.entries, T.astype dtype x = x

variable {T : NumpyTypes K}

/-- The array of a type that holds some numbers, converted. -/
def NumpyArray.ofNumbers (T : NumpyTypes K) (dtype : String) (tensor : Tensor K) :
    NumpyArray T where
  dtype := dtype
  tensor := tensor.map (T.astype dtype)
  typed := by
    intro x hx
    obtain ⟨y, -, rfl⟩ := List.mem_map.mp hx
    exact T.astype_astype dtype y

/-- Convert an array. -/
def NumpyArray.astype (dtype : String) (v : NumpyArray T) : NumpyArray T :=
  ofNumbers T dtype v.tensor

theorem NumpyArray.ext_tensor {v w : NumpyArray T} (hdtype : v.dtype = w.dtype)
    (htensor : v.tensor = w.tensor) : v = w := by
  cases v
  cases w
  cases hdtype
  cases htensor
  rfl

/-- Arrays of one type and shape with the same entries are equal. -/
theorem NumpyArray.eq_of_entries {v b : NumpyArray T} (hdtype : v.dtype = b.dtype)
    (hshape : v.tensor.shape = b.tensor.shape)
    (h : ∀ (i : ℕ) (x : K), b.tensor.entries[i]? = some x → v.tensor.entries[i]? = some x) :
    v = b := by
  refine NumpyArray.ext_tensor hdtype (Tensor.ext_entries hshape ?_)
  have hlength : v.tensor.entries.length = b.tensor.entries.length := by
    rw [v.tensor.length_entries, b.tensor.length_entries, hshape]
  apply List.ext_getElem?
  intro i
  cases hx : b.tensor.entries[i]? with
  | some x => exact h i x hx
  | none => rwa [List.getElem?_eq_none_iff, hlength, ← List.getElem?_eq_none_iff]

/-- A checkpoint: an array for each key. -/
abbrev ArrayCheckpoint (T : NumpyTypes K) := Dict String (NumpyArray T)

/-! ## Aggregation -/

variable (isfinite : K → Bool)

/-- A checkpoint contains a number that is not finite. -/
def hasCorrupt (cp : ArrayCheckpoint T) : Bool :=
  cp.values.any fun v => !v.tensor.entries.all isfinite

/-- The valid workers and their counts, collected in two lists. -/
def validUpdates (workerCheckpoints : List (ArrayCheckpoint T)) (sampleCounts : List ℤ) :
    List (ArrayCheckpoint T) × List ℤ :=
  (workerCheckpoints.zip sampleCounts).foldl
    (fun valid u => if hasCorrupt isfinite u.1 then valid else
      (valid.1 ++ [u.1], valid.2 ++ [u.2])) ([], [])

section Field

variable [Field K]

/-- What a worker changed under a key, entry by entry of the base's array. Nothing if it lacks the
key, and no answer if its array cannot be broadcast to the base's. -/
def deltaRow (key : String) (baseVal : NumpyArray T) (cp : ArrayCheckpoint T) : Option (List K) :=
  match cp.get? key with
  | none => some []
  | some workerVal => (workerVal.tensor.broadcastTo baseVal.tensor.shape).map fun row =>
      List.zipWith (· - ·) row baseVal.tensor.entries

/-- The numbers of an array, and what is added to them. -/
def moved (base : Tensor K) (rows : List (List K × K)) : Tensor K where
  shape := base.shape
  entries := List.zipWith (· + ·) base.entries (accumulateAll base.shape.prod rows)
  length_entries := by simp [base.length_entries]

/-- The new array under a key. -/
def aggregateKey (workers : List (ArrayCheckpoint T × K)) (key : String)
    (baseVal : NumpyArray T) : Option (NumpyArray T) :=
  (gather (deltaRow key baseVal) workers).map fun rows =>
    .ofNumbers T baseVal.dtype (moved baseVal.tensor rows)

/-- Move a checkpoint by the weighted changes of the valid workers. -/
def aggregateValidUpdates (baseCheckpoint : ArrayCheckpoint T)
    (workerCheckpoints : List (ArrayCheckpoint T)) (sampleCounts : List ℤ) :
    Option (ArrayCheckpoint T) :=
  let (validWorkers, validCounts) := validUpdates isfinite workerCheckpoints sampleCounts
  if validWorkers.isEmpty then some baseCheckpoint
  else
    let totalSamples : K := if validCounts.sum = 0 then 1 else validCounts.sum
    let weights := validCounts.map fun c : ℤ => (c : K) / totalSamples
    baseCheckpoint.mapValuesM (aggregateKey (validWorkers.zip weights))

/-- Train for some rounds, each from the checkpoint of the last. The number of samples of a part is
`sampleCount`, if it has one. -/
def coordinateSynchronizationRounds {π : Type*} (sampleCount : π → Option ℤ) (numRounds : ℕ)
    (initialCheckpoint : ArrayCheckpoint T)
    (trainWorkerFn : ℕ → ArrayCheckpoint T → π → ArrayCheckpoint T) (partitions : List π) :
    Option (ArrayCheckpoint T) :=
  (List.range' 1 numRounds).foldlM (fun currentCheckpoint r =>
    aggregateValidUpdates isfinite currentCheckpoint
      (partitions.map (trainWorkerFn r currentCheckpoint))
      (partitions.map fun part => (sampleCount part).getD 100)) initialCheckpoint

end Field

/-! ## What is left of the updates -/

/-- An update with its number of samples. -/
abbrev Update (T : NumpyTypes K) := ArrayCheckpoint T × ℤ

/-- The updates in which all numbers are finite. -/
def valid (us : List (Update T)) : List (Update T) := us.filter fun u => !hasCorrupt isfinite u.1

/-- The two lists of the loop stay aligned. -/
theorem validUpdates_eq (cps : List (ArrayCheckpoint T)) (counts : List ℤ) :
    validUpdates isfinite cps counts =
      ((valid isfinite (cps.zip counts)).map Prod.fst,
        (valid isfinite (cps.zip counts)).map Prod.snd) := by
  have hloop : ∀ (us : List (Update T)) (ws : List (ArrayCheckpoint T)) (cs : List ℤ),
      us.foldl (fun valid u => if hasCorrupt isfinite u.1 then valid else
        (valid.1 ++ [u.1], valid.2 ++ [u.2])) (ws, cs) =
      (ws ++ (valid isfinite us).map Prod.fst, cs ++ (valid isfinite us).map Prod.snd) := by
    intro us
    induction us with
    | nil => simp [valid]
    | cons u us ih =>
      intro ws cs
      rw [List.foldl_cons]
      by_cases hu : hasCorrupt isfinite u.1 = true
      · rw [if_pos hu, ih]
        simp [valid, hu]
      · rw [if_neg hu, ih]
        simp [valid, hu]
  rw [validUpdates, hloop, List.nil_append, List.nil_append]

theorem valid_append_cons (us us' : List (Update T)) {bad : Update T}
    (h : hasCorrupt isfinite bad.1 = true) :
    valid isfinite (us ++ bad :: us') = valid isfinite (us ++ us') := by
  simp [valid, h]

theorem mem_valid {us : List (Update T)} {u : Update T} (h : u ∈ valid isfinite us) :
    u ∈ us ∧ hasCorrupt isfinite u.1 = false := by
  simpa [valid] using h

theorem zip_updates (us : List (Update T)) : (us.map Prod.fst).zip (us.map Prod.snd) = us :=
  (List.zip_of_prod rfl rfl).symm

/-- Positive counts do not add up to zero. -/
theorem sum_counts_pos {us : List (Update T)} (hne : us ≠ []) (h : ∀ u ∈ us, 0 < u.2) :
    0 < (us.map Prod.snd).sum :=
  List.sum_pos _ (List.forall_mem_map.mpr h) (by simpa using hne)

/-! ## Checkpoints of the same shapes -/

/-- A checkpoint has the keys of another, and arrays of the same shapes. -/
structure SameShapes (base cp : ArrayCheckpoint T) : Prop where
  keys : ∀ key, (∃ v, cp.get? key = some v) ↔ ∃ b, base.get? key = some b
  shapes : ∀ key v b, cp.get? key = some v → base.get? key = some b →
    v.tensor.shape = b.tensor.shape

theorem SameShapes.refl (base : ArrayCheckpoint T) : SameShapes base base where
  keys _ := Iff.rfl
  shapes _ v b hv hb := by rw [Option.some.inj (hv.symm.trans hb)]

section Field

variable [Field K]

/-- The sum of the counts, as the weights are divided by it. -/
def totalSamples (K : Type*) [Field K] (us : List (Update T)) : K :=
  if (us.map Prod.snd).sum = 0 then 1 else ((us.map Prod.snd).sum : ℤ)

/-- The aggregate of updates that are all valid. -/
def aggregate (base : ArrayCheckpoint T) (us : List (Update T)) : Option (ArrayCheckpoint T) :=
  if us = [] then some base
  else base.mapValuesM (aggregateKey (us.map fun u => (u.1, u.2 / totalSamples K us)))

theorem aggregateValidUpdates_eq (base : ArrayCheckpoint T) (cps : List (ArrayCheckpoint T))
    (counts : List ℤ) : aggregateValidUpdates isfinite base cps counts =
      aggregate base (valid isfinite (cps.zip counts)) := by
  simp only [aggregateValidUpdates, validUpdates_eq, aggregate, totalSamples, List.map_map]
  cases valid isfinite (cps.zip counts) with
  | nil => rfl
  | cons u us =>
    rw [List.zip_map']
    rfl

/-- **The order of the updates does not matter.** -/
theorem aggregate_perm (base : ArrayCheckpoint T) {us us' : List (Update T)} (h : us.Perm us') :
    aggregate base us = aggregate base us' := by
  have hnil : us = [] ↔ us' = [] := ⟨fun h' => (h' ▸ h).nil_eq.symm, fun h' => (h' ▸ h).eq_nil⟩
  have htotal : totalSamples K us = totalSamples K us' := by
    rw [totalSamples, totalSamples, (h.map _).sum_eq]
  have hkey : aggregateKey (us.map fun u => (u.1, (u.2 : K) / totalSamples K us)) =
      aggregateKey (us'.map fun u => (u.1, (u.2 : K) / totalSamples K us')) := by
    funext key baseVal
    rw [aggregateKey, aggregateKey, htotal]
    apply map_gather_perm (h.map _)
    intro rows rows' hrows
    rw [moved, moved]
    simp only [accumulateAll_perm hrows]
  rw [aggregate, aggregate, hkey]
  simp only [hnil]

/-! ## The formula -/

/-- An entry of an array of a checkpoint. -/
def entryAt (cp : ArrayCheckpoint T) (key : String) (i : ℕ) : K :=
  ((cp.get? key).bind fun v => v.tensor.entries[i]?).getD 0

/-- What is added to an entry of the base: the changes of the updates, weighted by their counts. -/
def weightedChange (us : List (Update T)) (key : String) (i : ℕ) (x : K) : K :=
  (us.map fun u => (u.2 : K) / ((us.map Prod.snd).sum : ℤ) * (entryAt u.1 key i - x)).sum

/-- The change of a worker with an array of the base's shape. -/
theorem deltaRow_of_sameShapes {base cp : ArrayCheckpoint T} (h : SameShapes base cp)
    {key : String} {b : NumpyArray T} (hb : base.get? key = some b) :
    ∃ row, deltaRow key b cp = some row ∧
      ∀ i x, b.tensor.entries[i]? = some x → row.getD i 0 = entryAt cp key i - x := by
  obtain ⟨v, hv⟩ := (h.keys key).mpr ⟨b, hb⟩
  have hshape := h.shapes key v b hv hb
  refine ⟨List.zipWith (· - ·) v.tensor.entries b.tensor.entries, ?_, fun i x hx => ?_⟩
  · simp only [deltaRow, hv, ← hshape, Tensor.broadcastTo_self, Option.map_some]
  · have hi : i < v.tensor.entries.length := by
      rw [v.tensor.length_entries, hshape, ← b.tensor.length_entries]
      exact (List.getElem?_eq_some_iff.mp hx).1
    rw [List.getD_eq_getElem?_getD, List.getElem?_zipWith, hx, List.getElem?_eq_getElem hi]
    simp [entryAt, hv, List.getElem?_eq_getElem hi]

theorem getElem?_moved (base : Tensor K) (rows : List (List K × K)) (i : ℕ) :
    (moved base rows).entries[i]? =
      base.entries[i]?.map (· + total (rows.map fun row => (row.1.getD i 0, row.2))) := by
  rw [moved, List.getElem?_zipWith, getElem?_accumulateAll, ← base.length_entries]
  cases h : base.entries[i]? with
  | none => simp
  | some x =>
    have hi : i < base.entries.length := (List.getElem?_eq_some_iff.mp h).1
    simp [hi]

theorem aggregateKey_entries {base : ArrayCheckpoint T} {ws : List (ArrayCheckpoint T × K)}
    (h : ∀ w ∈ ws, SameShapes base w.1) {key : String} {b : NumpyArray T}
    (hb : base.get? key = some b) :
    ∃ v, aggregateKey ws key b = some v ∧ v.dtype = b.dtype ∧ v.tensor.shape = b.tensor.shape ∧
      ∀ i x, b.tensor.entries[i]? = some x → v.tensor.entries[i]? =
        some (T.astype b.dtype (x + (ws.map fun w => w.2 * (entryAt w.1 key i - x)).sum)) := by
  have hrow := fun w hw => deltaRow_of_sameShapes (h w hw) hb
  obtain ⟨rows, hrows⟩ : ∃ rows, gather (deltaRow key b) ws = some rows := by
    refine exists_gather.mpr fun w hw => ?_
    obtain ⟨row, hdelta, -⟩ := hrow w hw
    exact ⟨row, hdelta⟩
  refine ⟨.ofNumbers T b.dtype (moved b.tensor rows),
    by rw [aggregateKey, hrows, Option.map_some], rfl, rfl, fun i x hx => ?_⟩
  have hsum : total (rows.map fun row => (row.1.getD i 0, row.2)) =
      (ws.map fun w => w.2 * (entryAt w.1 key i - x)).sum := by
    rw [eq_of_gather hrows fun _ => [], standIn, total, List.map_map, List.map_map]
    congr 1
    apply List.map_congr_left
    intro w hw
    obtain ⟨row, hdelta, hentry⟩ := hrow w hw
    simp only [Function.comp_apply, hdelta, Option.getD_some]
    rw [hentry i x hx, mul_comm]
  change ((moved b.tensor rows).entries.map (T.astype b.dtype))[i]? = _
  rw [List.getElem?_map, getElem?_moved, hx, hsum]
  rfl

/-- Workers that return the base do not move it, whatever their counts are. -/
theorem aggregate_unchanged {base : ArrayCheckpoint T} {us : List (Update T)}
    (h : ∀ u ∈ us, u.1 = base) : aggregate base us = some base := by
  by_cases hnil : us = []
  · rw [aggregate, if_pos hnil]
  have hkey : ∀ key b, base.get? key = some b →
      aggregateKey (us.map fun u => (u.1, (u.2 : K) / totalSamples K us)) key b = some b := by
    intro key b hb
    have hshapes : ∀ w ∈ us.map fun u => (u.1, (u.2 : K) / totalSamples K us),
        SameShapes base w.1 := by
      rw [List.forall_mem_map]
      exact fun u hu => h u hu ▸ .refl base
    obtain ⟨v, hv, hdtype, hshape, hentries⟩ := aggregateKey_entries hshapes hb
    rw [hv, NumpyArray.eq_of_entries hdtype hshape fun i x hx => ?_]
    have hbase : entryAt base key i = x := by simp [entryAt, hb, hx]
    have hzero : ((us.map fun u => (u.1, (u.2 : K) / totalSamples K us)).map fun w =>
        w.2 * (entryAt w.1 key i - x)).sum = 0 := by
      apply List.sum_eq_zero
      simp only [List.map_map, List.forall_mem_map, Function.comp_apply]
      intro u hu
      rw [h u hu, hbase, sub_self, mul_zero]
    rw [hentries i x hx, hzero, add_zero, b.typed x (List.mem_of_getElem? hx)]
  obtain ⟨r, hr⟩ := Dict.exists_mapValuesM fun key b hb => ⟨b, hkey key b hb⟩
  obtain ⟨hkeys, hget⟩ := Dict.of_mapValuesM hr
  rw [aggregate, if_neg hnil, hr]
  refine congrArg some (Dict.ext_keys hkeys fun key => ?_)
  cases hb : base.get? key with
  | none => rwa [← Dict.not_mem_keys, hkeys, Dict.not_mem_keys]
  | some b =>
    obtain ⟨v, hv, hr'⟩ := hget key b hb
    rw [hr', ← hv, hkey key b hb]

/-- **The formula of an aggregate.** -/
theorem aggregate_entries {base : ArrayCheckpoint T} {us : List (Update T)}
    (hshapes : ∀ u ∈ us, SameShapes base u.1) (hpos : ∀ u ∈ us, 0 < u.2) :
    ∃ r, aggregate base us = some r ∧ r.keys = base.keys ∧
      ∀ key b, base.get? key = some b → ∃ v, r.get? key = some v ∧ v.dtype = b.dtype ∧
        v.tensor.shape = b.tensor.shape ∧ ∀ i x, b.tensor.entries[i]? = some x →
          v.tensor.entries[i]? = some (T.astype b.dtype (x + weightedChange us key i x)) := by
  by_cases hnil : us = []
  · refine ⟨base, by rw [aggregate, if_pos hnil], rfl, fun key b hb => ⟨b, hb, rfl, rfl, ?_⟩⟩
    intro i x hx
    have hzero : weightedChange us key i x = 0 := by rw [hnil]; rfl
    rw [hzero, add_zero, b.typed x (List.mem_of_getElem? hx), hx]
  have htotal : totalSamples K us = ((us.map Prod.snd).sum : ℤ) :=
    if_neg (sum_counts_pos hnil hpos).ne'
  have hshapes' : ∀ w ∈ us.map fun u => (u.1, (u.2 : K) / totalSamples K us),
      SameShapes base w.1 := List.forall_mem_map.mpr hshapes
  obtain ⟨r, hr⟩ := Dict.exists_mapValuesM (d := base) fun key b hb => by
    obtain ⟨v, hv, -⟩ := aggregateKey_entries hshapes' hb
    exact ⟨v, hv⟩
  obtain ⟨hkeys, hget⟩ := Dict.of_mapValuesM hr
  refine ⟨r, by rw [aggregate, if_neg hnil, hr], hkeys, fun key b hb => ?_⟩
  obtain ⟨v, hv, hrv⟩ := hget key b hb
  obtain ⟨v', hv', hdtype, hshape, hentries⟩ := aggregateKey_entries hshapes' hb
  obtain rfl : v = v' := Option.some.inj (hv.symm.trans hv')
  refine ⟨v, hrv, hdtype, hshape, fun i x hx => ?_⟩
  rw [hentries i x hx, List.map_map, htotal]
  rfl

section Counts

variable [CharZero K]

theorem weightedChange_of_forall {us : List (Update T)} (hne : us ≠ [])
    (hpos : ∀ u ∈ us, 0 < u.2) {key : String} {i : ℕ} {w : K}
    (h : ∀ u ∈ us, entryAt u.1 key i = w) (x : K) : weightedChange us key i x = w - x := by
  have hsum : (((us.map Prod.snd).sum : ℤ) : K) ≠ 0 :=
    Int.cast_ne_zero.mpr (sum_counts_pos hne hpos).ne'
  have hshares : (us.map fun u => (u.2 : K) / ((us.map Prod.snd).sum : ℤ)).sum = 1 := by
    have hcast := map_list_sum (Int.castRingHom K) (us.map Prod.snd)
    rw [List.map_map] at hcast
    simp only [div_eq_mul_inv]
    rw [List.sum_map_mul_right, mul_inv_eq_one₀ hsum]
    exact hcast.symm
  have hcongr : (us.map fun u => (u.2 : K) / ((us.map Prod.snd).sum : ℤ) *
      (entryAt u.1 key i - x)) =
      us.map fun u => (u.2 : K) / ((us.map Prod.snd).sum : ℤ) * (w - x) :=
    List.map_congr_left fun u hu => by rw [h u hu]
  rw [weightedChange, hcongr, List.sum_map_mul_right, hshares, one_mul]

end Counts

end Field

/-! ## The laws -/

section Laws

variable [Field K]

/-- The aggregate of some updates, as lists of checkpoints and of counts. -/
def aggregated (base : ArrayCheckpoint T) (us : List (Update T)) : Option (ArrayCheckpoint T) :=
  aggregateValidUpdates isfinite base (us.map Prod.fst) (us.map Prod.snd)

theorem aggregated_eq (base : ArrayCheckpoint T) (us : List (Update T)) :
    aggregated isfinite base us = aggregate base (valid isfinite us) := by
  rw [aggregated, aggregateValidUpdates_eq, zip_updates]

/-- **Only the valid updates matter**, and not their order. -/
theorem aggregated_congr (base : ArrayCheckpoint T) {us us' : List (Update T)}
    (h : (valid isfinite us).Perm (valid isfinite us')) :
    aggregated isfinite base us = aggregated isfinite base us' := by
  rw [aggregated_eq, aggregated_eq]
  exact aggregate_perm base h

/-- **The laws of aggregation.** -/
structure AggregationLaws (T : NumpyTypes K) (isfinite : K → Bool) : Prop where
  /-- An entry is moved by the weighted changes of the valid updates, and converted to the type of
  its array. -/
  formula : ∀ (base : ArrayCheckpoint T) (us : List (Update T)),
    (∀ u ∈ us, SameShapes base u.1) → (∀ u ∈ us, 0 < u.2) →
    ∃ r, aggregated isfinite base us = some r ∧ r.keys = base.keys ∧
      ∀ key b, base.get? key = some b → ∃ v, r.get? key = some v ∧ v.dtype = b.dtype ∧
        v.tensor.shape = b.tensor.shape ∧ ∀ i x, b.tensor.entries[i]? = some x →
          v.tensor.entries[i]? =
            some (T.astype b.dtype (x + weightedChange (valid isfinite us) key i x))
  /-- Adding or removing a corrupt update changes nothing. -/
  insert : ∀ (base : ArrayCheckpoint T) (us us' : List (Update T)) (bad : Update T),
    hasCorrupt isfinite bad.1 = true →
    aggregated isfinite base (us ++ bad :: us') = aggregated isfinite base (us ++ us')
  /-- Altering a corrupt update changes nothing, as long as it stays corrupt. -/
  alter : ∀ (base : ArrayCheckpoint T) (us us' : List (Update T)) (bad bad' : Update T),
    hasCorrupt isfinite bad.1 = true → hasCorrupt isfinite bad'.1 = true →
    aggregated isfinite base (us ++ bad :: us') = aggregated isfinite base (us ++ bad' :: us')
  /-- Permuting the updates with their counts changes nothing. -/
  perm : ∀ (base : ArrayCheckpoint T) (us us' : List (Update T)), us.Perm us' →
    aggregated isfinite base us = aggregated isfinite base us'
  /-- Valid updates that are equal are the aggregate. -/
  common : ∀ (base : ArrayCheckpoint T) (us : List (Update T)) (cp : ArrayCheckpoint T),
    (∀ u ∈ us, SameShapes base u.1) → (∀ u ∈ us, 0 < u.2) → valid isfinite us ≠ [] →
    (∀ u ∈ valid isfinite us, u.1 = cp) →
    ∃ r, aggregated isfinite base us = some r ∧ r.keys = base.keys ∧
      ∀ key b w, base.get? key = some b → cp.get? key = some w →
        r.get? key = some (w.astype b.dtype)
  /-- Without a valid update the base is kept. -/
  rejected : ∀ (base : ArrayCheckpoint T) (us : List (Update T)),
    (∀ u ∈ us, hasCorrupt isfinite u.1 = true) → aggregated isfinite base us = some base

/-- Equal updates are the aggregate. -/
theorem aggregate_common [CharZero K] {base cp : ArrayCheckpoint T} {us : List (Update T)}
    (hshapes : ∀ u ∈ us, SameShapes base u.1) (hpos : ∀ u ∈ us, 0 < u.2) (hne : us ≠ [])
    (hcommon : ∀ u ∈ us, u.1 = cp) :
    ∃ r, aggregate base us = some r ∧ r.keys = base.keys ∧
      ∀ key b w, base.get? key = some b → cp.get? key = some w →
        r.get? key = some (w.astype b.dtype) := by
  obtain ⟨r, hr, hkeys, hget⟩ := aggregate_entries hshapes hpos
  refine ⟨r, hr, hkeys, fun key b w hb hw => ?_⟩
  obtain ⟨u, hu⟩ := List.exists_mem_of_ne_nil us hne
  have hshape : w.tensor.shape = b.tensor.shape := by
    have hcp := hshapes u hu
    rw [hcommon u hu] at hcp
    exact hcp.shapes key w b hw hb
  obtain ⟨v, hv, hdtype, hvshape, hentries⟩ := hget key b hb
  rw [hv, NumpyArray.eq_of_entries (b := w.astype b.dtype) hdtype (hvshape.trans hshape.symm)]
  intro i y hy
  obtain ⟨z, hz, rfl⟩ : ∃ z, w.tensor.entries[i]? = some z ∧ T.astype b.dtype z = y := by
    change (w.tensor.entries.map (T.astype b.dtype))[i]? = some y at hy
    rwa [List.getElem?_map, Option.map_eq_some_iff] at hy
  have hi : i < b.tensor.entries.length := by
    rw [b.tensor.length_entries, ← hshape, ← w.tensor.length_entries]
    exact (List.getElem?_eq_some_iff.mp hz).1
  have hentry : ∀ u ∈ us, entryAt u.1 key i = z := by
    intro u hu
    rw [hcommon u hu]
    simp [entryAt, hw, hz]
  rw [hentries i _ (List.getElem?_eq_getElem hi), weightedChange_of_forall hne hpos hentry]
  simp

theorem rounds_idle {π : Type*} (sampleCount : π → Option ℤ) (numRounds : ℕ)
    (initial : ArrayCheckpoint T) {train : ℕ → ArrayCheckpoint T → π → ArrayCheckpoint T}
    (h : ∀ r cp part, train r cp part = cp ∨ hasCorrupt isfinite (train r cp part) = true)
    (partitions : List π) :
    coordinateSynchronizationRounds isfinite sampleCount numRounds initial train partitions =
      some initial := by
  have hround : ∀ r, aggregateValidUpdates isfinite initial (partitions.map (train r initial))
      (partitions.map fun part => (sampleCount part).getD 100) = some initial := by
    intro r
    rw [aggregateValidUpdates_eq, List.zip_map']
    apply aggregate_unchanged
    intro u hu
    obtain ⟨hmem, hclean⟩ := mem_valid isfinite hu
    obtain ⟨part, -, rfl⟩ := List.mem_map.mp hmem
    exact (h r initial part).resolve_right (by simp [hclean])
  rw [coordinateSynchronizationRounds]
  induction List.range' 1 numRounds with
  | nil => rfl
  | cons r rs ih =>
    rw [List.foldlM_cons, hround r]
    exact ih

/-- **Aggregation satisfies the laws**, and rounds with workers that do not train return the initial
checkpoint. -/
theorem aggregation_laws [CharZero K] {π : Type*} (T : NumpyTypes K) (isfinite : K → Bool) :
    AggregationLaws T isfinite ∧
    ∀ (sampleCount : π → Option ℤ) (numRounds : ℕ) (initial : ArrayCheckpoint T)
      (train : ℕ → ArrayCheckpoint T → π → ArrayCheckpoint T) (partitions : List π),
      (∀ r cp part, train r cp part = cp ∨ hasCorrupt isfinite (train r cp part) = true) →
      coordinateSynchronizationRounds isfinite sampleCount numRounds initial train partitions =
        some initial := by
  refine ⟨⟨?formula, ?insert, ?alter, ?perm, ?common, ?rejected⟩, ?rounds⟩
  case formula =>
    intro base us hshapes hpos
    rw [aggregated_eq]
    exact aggregate_entries (fun u hu => hshapes u (mem_valid isfinite hu).1)
      fun u hu => hpos u (mem_valid isfinite hu).1
  case insert =>
    intro base us us' bad hbad
    apply aggregated_congr
    rw [valid_append_cons isfinite us us' hbad]
  case alter =>
    intro base us us' bad bad' hbad hbad'
    apply aggregated_congr
    rw [valid_append_cons isfinite us us' hbad, valid_append_cons isfinite us us' hbad']
  case perm =>
    intro base us us' hperm
    exact aggregated_congr isfinite base (hperm.filter _)
  case common =>
    intro base us cp hshapes hpos hne hcommon
    rw [aggregated_eq]
    exact aggregate_common (fun u hu => hshapes u (mem_valid isfinite hu).1)
      (fun u hu => hpos u (mem_valid isfinite hu).1) hne hcommon
  case rejected =>
    intro base us hcorrupt
    have hnil : valid isfinite us = [] := by simpa [valid] using hcorrupt
    rw [aggregated_eq, hnil, aggregate, if_pos rfl]
  case rounds =>
    exact fun sampleCount numRounds initial train partitions h =>
      rounds_idle isfinite sampleCount numRounds initial h partitions

end Laws

/-! ### Types of whole numbers -/

/-- Floating-point types hold every number, others the whole numbers, to which a conversion cuts
off. -/
def exactTypes : NumpyTypes ℚ where
  astype dtype x := if dtype = "float32" ∨ dtype = "float64" then x else x.num.tdiv x.den
  astype_astype dtype x := by split_ifs <;> simp

/-- A checkpoint with one array of one entry. -/
def single (dtype : String) (q : ℚ) : ArrayCheckpoint exactTypes :=
  Dict.ofList [("weight", .ofNumbers exactTypes dtype (.scalar q))]

theorem get?_single (dtype : String) (q : ℚ) (key : String) :
    (single dtype q).get? key =
      if key = "weight" then some (.ofNumbers exactTypes dtype (.scalar q)) else none := by
  simp [single, Dict.ofList]

theorem sameShapes_single (dtype : String) (q q' : ℚ) :
    SameShapes (single dtype q) (single dtype q') where
  keys key := by
    rw [get?_single, get?_single]
    split <;> simp
  shapes key v b hv hb := by
    rw [get?_single, Option.ite_none_right_eq_some] at hv hb
    rw [← Option.some.inj hv.2, ← Option.some.inj hb.2]
    rfl

/-- Two updates of which the second counts three times, and one that is corrupt. -/
def threeUpdates (dtype : String) : List (Update exactTypes) :=
  [(single dtype 1, 1), (single dtype 2, 3), (single dtype 100, 5)]

/-- The checkpoint moves to the mean of the valid updates, and without training it stays. -/
theorem aggregation_laws_single :
    (∃ r v, aggregated (· < 100) (single "float64" 0) (threeUpdates "float64") = some r ∧
      r.get? "weight" = some v ∧ v.tensor.entries[0]? = some (7 / 4)) ∧
    coordinateSynchronizationRounds (· < 100) (fun part : Option ℤ => part) 2 (single "float64" 0)
      (fun _ cp _ => cp) [none, some 2] = some (single "float64" 0) := by
  obtain ⟨hlaws, hrounds⟩ := aggregation_laws (π := Option ℤ) exactTypes (· < 100)
  constructor
  · have hshapes : ∀ u ∈ threeUpdates "float64", SameShapes (single "float64" 0) u.1 := by
      simp [threeUpdates, sameShapes_single]
    have hpos : ∀ u ∈ threeUpdates "float64", 0 < u.2 := by simp [threeUpdates]
    obtain ⟨r, hr, -, hget⟩ := hlaws.formula (single "float64" 0) (threeUpdates "float64")
      hshapes hpos
    obtain ⟨v, hv, -, -, hentries⟩ := hget "weight" _ (get?_single "float64" 0 "weight")
    exact ⟨r, v, hr, hv, (hentries 0 0 rfl).trans (by decide +kernel)⟩
  · exact hrounds _ _ _ _ _ fun _ _ _ => .inl rfl

/-- A counter is not the weighted mean of the workers' counters. -/
theorem counter_truncated :
    (∀ u ∈ threeUpdates "int64", SameShapes (single "int64" 0) u.1 ∧ 0 < u.2) ∧
    ∃ r v, aggregated (· < 100) (single "int64" 0) (threeUpdates "int64") = some r ∧
      r.get? "weight" = some v ∧ v.tensor.entries[0]? = some 1 ∧
      0 + weightedChange (valid (· < 100) (threeUpdates "int64")) "weight" 0 0 =
        (7 / 4 : ℚ) := by
  have hone : (aggregated (· < 100) (single "int64" 0) (threeUpdates "int64")).map
      (fun r => (r.get? "weight").map (·.tensor.entries)) = some (some [1]) := by decide +kernel
  obtain ⟨r, hr, hweight⟩ := Option.map_eq_some_iff.mp hone
  obtain ⟨v, hv, hentries⟩ := Option.map_eq_some_iff.mp hweight
  refine ⟨by simp [threeUpdates, sameShapes_single], r, v, hr, hv, by rw [hentries]; rfl, ?_⟩
  decide +kernel

end Aidars.Training
