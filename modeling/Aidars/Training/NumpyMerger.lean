import Aidars.Training.Merger

/-!
# Averaging NumPy checkpoints

`numpyRule` is what the merger does with an array of NumPy checkpoints: floating-point and complex
arrays are averaged, anything else is the first checkpoint's. In this format every checkpoint must
have the keys of the first that are averaged. `numpyAveraging` has the facts on which the laws of
the averages rest, and `fedavgNumpyDict_laws` collects them. The arithmetic is exact: the rounding
of `float64` sums is left out.
-/

namespace Aidars.Training

open NestedDict WeightedMean

variable {υ : Type*}

/-- An array in a checkpoint, with the name of its type. -/
inductive NumpyLeaf (υ : Type*)
  | floating (dtype : String) (t : Tensor ℚ)
  | complex (dtype : String) (t : Tensor (ℚ × ℚ))
  | other (v : υ)
  deriving DecidableEq

variable (asFloat64 : υ → Option (Tensor ℚ))

/-- `arr.astype(np.float64)`, which keeps the real part of a complex number. Of arrays of other
types it makes what `asFloat64` says. -/
def toFloat64 : NumpyLeaf υ → Option (Tensor ℚ)
  | .floating _ t => some t
  | .complex _ t => some (t.map Prod.fst)
  | .other v => asFloat64 v

/-- What is added up for a checkpoint, entry by entry of the first checkpoint's array. -/
def arrayRow (shape : List ℕ) : Found (NumpyLeaf υ) → Option (List ℚ)
  | .leaf v => (toFloat64 asFloat64 v).bind (Tensor.broadcastTo shape)
  | .missing | .dict _ | .stuck => none

/-- What `_fedavg_numpy_dict` does with an array. -/
def numpyRule (_key : String) (v : NumpyLeaf υ) (col : List (Found (NumpyLeaf υ) × ℚ)) :
    Option (NumpyLeaf υ) :=
  match v with
  | .floating dtype t =>
    (gather (arrayRow asFloat64 t.shape) col).map fun rows =>
      .floating dtype (accumulated t.shape rows)
  | .complex dtype t =>
    (gather (arrayRow asFloat64 t.shape) col).map fun rows =>
      .complex dtype ((accumulated t.shape rows).map (·, 0))
  | .other v => some (.other v)

/-- What the checkpoints must have for there to be an averaged array. -/
def NumpyFits (_key : String) (v : NumpyLeaf υ) (col : List (Found (NumpyLeaf υ) × ℚ)) : Prop :=
  match v with
  | .floating _ t => ∀ e ∈ col, ∃ row, arrayRow asFloat64 t.shape e.1 = some row
  | .complex _ t => ∀ e ∈ col, ∃ row, arrayRow asFloat64 t.shape e.1 = some row
  | .other _ => True

/-- The numbers of a floating-point array. -/
def numpyValue (v : NumpyLeaf υ) (i : ℕ) : Option ℚ :=
  match v with
  | .floating _ t => t.entries[i]?
  | _ => none

/-- The numbers a checkpoint contributes to a floating-point array. -/
def numpyContributed (v : NumpyLeaf υ) (f : Found (NumpyLeaf υ)) (i : ℕ) : Option ℚ :=
  match v with
  | .floating _ t => (arrayRow asFloat64 t.shape f).bind fun row => row[i]?
  | _ => none

/-- Arrays of one type and shape. -/
def NumpyAlike (_key : String) (v v' : NumpyLeaf υ) (_col : List (Found (NumpyLeaf υ) × ℚ)) :
    Prop :=
  match v, v' with
  | .floating dtype t, .floating dtype' t' => dtype = dtype' ∧ t.shape = t'.shape
  | .complex dtype t, .complex dtype' t' => dtype = dtype' ∧ t.shape = t'.shape
  | _, _ => False

theorem numpyRule_fits (k : String) (v : NumpyLeaf υ) (col : List (Found (NumpyLeaf υ) × ℚ)) :
    (∃ v', numpyRule asFloat64 k v col = some v') ↔ NumpyFits asFloat64 k v col := by
  cases v with
  | floating dtype t => exact exists_map_gather
  | complex dtype t => exact exists_map_gather
  | other v => simp [numpyRule, NumpyFits]

variable {asFloat64}

theorem numpyRule_value {k : String} {v : NumpyLeaf υ} {col : List (Found (NumpyLeaf υ) × ℚ)}
    {v' : NumpyLeaf υ} {i : ℕ} {x : ℚ} (h : numpyRule asFloat64 k v col = some v')
    (hx : numpyValue v' i = some x) :
    x = total (standIn (numpyContributed asFloat64 v · i) (fun _ => 0) col) := by
  cases v with
  | floating dtype t =>
    obtain ⟨rows, hrows, rfl⟩ := Option.map_eq_some_iff.mp h
    exact eq_total_of_accumulateAll hrows hx
  | complex dtype t =>
    obtain ⟨rows, -, rfl⟩ := Option.map_eq_some_iff.mp h
    simp [numpyValue] at hx
  | other v =>
    obtain rfl := Option.some.inj h
    simp [numpyValue] at hx

theorem numpyRule_places {k : String} {v : NumpyLeaf υ} {col : List (Found (NumpyLeaf υ) × ℚ)}
    {v' : NumpyLeaf υ} {i : ℕ} {x : ℚ} (h : numpyRule asFloat64 k v col = some v')
    (hx : numpyValue v i = some x) : ∃ x', numpyValue v' i = some x' := by
  cases v with
  | floating dtype t =>
    obtain ⟨rows, -, rfl⟩ := Option.map_eq_some_iff.mp h
    obtain ⟨hi, -⟩ := List.getElem?_eq_some_iff.mp hx
    rw [t.length_entries] at hi
    simp [numpyValue, accumulated, hi]
  | complex dtype t => simp [numpyValue] at hx
  | other v => simp [numpyValue] at hx

theorem numpyRule_perm {k : String} {v : NumpyLeaf υ} {col col' : List (Found (NumpyLeaf υ) × ℚ)}
    (h : col.Perm col') : numpyRule asFloat64 k v col = numpyRule asFloat64 k v col' := by
  cases v with
  | floating dtype t => exact map_gather_perm h fun hrows => by rw [accumulated_perm hrows]
  | complex dtype t => exact map_gather_perm h fun hrows => by rw [accumulated_perm hrows]
  | other v => rfl

theorem numpyRule_alike {k : String} {v v' : NumpyLeaf υ} {col : List (Found (NumpyLeaf υ) × ℚ)}
    (h : NumpyAlike k v v' col) : numpyRule asFloat64 k v col = numpyRule asFloat64 k v' col := by
  match v, v', h with
  | .floating dtype t, .floating dtype' t', h =>
    obtain ⟨rfl, hshape⟩ := h
    rw [numpyRule, numpyRule, hshape]
  | .complex dtype t, .complex dtype' t', h =>
    obtain ⟨rfl, hshape⟩ := h
    rw [numpyRule, numpyRule, hshape]

theorem numpyContributed_self {v : NumpyLeaf υ} {i : ℕ} {x : ℚ} (h : numpyValue v i = some x) :
    numpyContributed asFloat64 v (.leaf v) i = some x := by
  cases v with
  | floating dtype t =>
    have hrow : arrayRow asFloat64 t.shape (.leaf (.floating dtype t)) = some t.entries :=
      t.broadcastTo_self
    rw [numpyContributed, hrow]
    exact h
  | complex dtype t => simp [numpyValue] at h
  | other v => simp [numpyValue] at h

variable (asFloat64)

/-- What NumPy's format does with arrays. -/
def numpyAveraging : Averaging (NumpyLeaf υ) where
  rule := numpyRule asFloat64
  Fits := NumpyFits asFloat64
  value := numpyValue
  contributed := numpyContributed asFloat64
  counted _ _ _ := 0
  Alike := NumpyAlike
  rule_fits := numpyRule_fits asFloat64
  rule_value := numpyRule_value
  rule_places := numpyRule_places
  rule_perm := numpyRule_perm
  rule_alike := numpyRule_alike
  contributed_self := numpyContributed_self

/-- `_fedavg_numpy_dict`. -/
def fedavgNumpyDict : List (Checkpoint (NumpyLeaf υ) × ℚ) → Option (NestedDict (NumpyLeaf υ)) :=
  fedavg (numpyAveraging asFloat64)

/-- **What averages of NumPy checkpoints are like.** -/
theorem fedavgNumpyDict_laws {cs : List (Checkpoint (NumpyLeaf υ) × ℚ)}
    (hnonneg : ∀ c ∈ cs, 0 ≤ c.2) (hsum : weight cs = 1) :
    ((∃ r, fedavgNumpyDict asFloat64 cs = some r) ↔
      cs.length ≤ 1 ∨ Compatible (numpyAveraging asFloat64) cs) ∧
    ∀ r, fedavgNumpyDict asFloat64 cs = some r → FedavgLaws (numpyAveraging asFloat64) cs r :=
  ⟨exists_fedavg, fun _ hr => fedavgLaws hnonneg hsum hr⟩

/-- A checkpoint with one array of two entries. -/
def arrayOf (q : ℚ) : Checkpoint (NumpyLeaf Unit) where
  dict := .leaf "weight" (.floating "float32" ⟨[1, 2], [q, q], rfl⟩) .nil
  distinct := by simp [Distinct, NestedDict.get]

theorem fedavgNumpyDict_laws_quarters :
    ∃ r, fedavgNumpyDict (fun _ => none) (quarters (arrayOf 1) (arrayOf 3)) = some r ∧
      FedavgLaws (numpyAveraging fun _ => none) (quarters (arrayOf 1) (arrayOf 3)) r := by
  obtain ⟨hnonneg, hsum⟩ := quarters_weights (arrayOf 1) (arrayOf 3)
  obtain ⟨r, hr⟩ : ∃ r, fedavgNumpyDict (fun _ => none) (quarters (arrayOf 1) (arrayOf 3)) =
      some r := ⟨_, rfl⟩
  exact ⟨r, hr, (fedavgNumpyDict_laws _ hnonneg hsum).2 r hr⟩

end Aidars.Training
