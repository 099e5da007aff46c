import Aidars.Foundations.Tensor
import Aidars.Training.JsonMerger
import Mathlib.Data.List.Infix

/-!
# The checkpoint merger

The merger averages checkpoints in JSON and in PyTorch's format. Each is the shared recursion with
what the format does with a leaf. This module has PyTorch's: floating-point and complex tensors are
averaged, counters are summed up, anything else is the first checkpoint's.

`fedavg_weightedMean` collects what holds of both formats: when there is an average, and the laws it
then satisfies, for every list of checkpoints and all weights that sum up to one.
-/

namespace Aidars.Training

open NestedDict WeightedMean

variable {τ : Type*}

/-! ## Tensors in a checkpoint -/

/-- A value in a state dictionary that is no dictionary: a tensor with the name of its type, `None`,
or anything else. Booleans are integers. -/
inductive TorchLeaf (τ : Type*)
  | floating (dtype : String) (t : Tensor ℚ)
  | complex (dtype : String) (t : Tensor (ℚ × ℚ))
  | integral (dtype : String) (t : Tensor ℤ)
  | pyNone
  | other (t : τ)
  deriving DecidableEq

/-- `tensor.to(torch.float32)`, which keeps the real part of a complex number. -/
def toFloat32 : TorchLeaf τ → Option (Tensor ℚ)
  | .floating _ t => some t
  | .complex _ t => some (t.map Prod.fst)
  | .integral _ t => some (t.map Int.cast)
  | .pyNone | .other _ => none

/-- What is added up for a checkpoint, entry by entry of the first checkpoint's tensor: nothing if
`sd.get(k)` is `None`. -/
def addedRow (shape : List ℕ) : Found (TorchLeaf τ) → Option (List ℚ)
  | .missing | .leaf .pyNone => some []
  | .leaf v => (toFloat32 v).bind (Tensor.broadcastTo shape)
  | .dict _ | .stuck => none

/-- `tensor.item()` of a counter. -/
def counterItem : TorchLeaf τ → Option ℚ
  | .floating _ t => t.item
  | .integral _ t => (t.map Int.cast).item
  | .complex .. | .pyNone | .other _ => none

/-- What is counted for a checkpoint: nothing if the key is not in it. -/
def counted : Found (TorchLeaf τ) → Option ℚ
  | .missing => some 0
  | .leaf v => counterItem v
  | .dict _ | .stuck => none

/-- Whether integers under a key are counted together. -/
def IsCounter (k : String) : Prop :=
  "batches_tracked".toList <:+: k.toList ∨ "step".toList <:+: k.toList ∨
    "count".toList <:+: k.toList

instance (k : String) : Decidable (IsCounter k) := inferInstanceAs (Decidable (_ ∨ _ ∨ _))

/-- `torch.zeros_like(v)`, to which some weighted rows are added. -/
def accumulated (shape : List ℕ) (rows : List (List ℚ × ℚ)) : Tensor ℚ :=
  ⟨shape, accumulateAll shape.prod rows, length_accumulateAll _ _⟩

/-- What `_fedavg_pytorch_state_dict` does with a leaf. Of the total of some counters
`torch.tensor(total_count, dtype=v.dtype)` makes what `castTotal` says. -/
def pytorchRule (castTotal : String → ℚ → Option ℤ) (k : String) (v : TorchLeaf τ)
    (col : List (Found (TorchLeaf τ) × ℚ)) : Option (TorchLeaf τ) :=
  match v with
  | .floating dtype t =>
    (gather (addedRow t.shape) col).map fun rows => .floating dtype (accumulated t.shape rows)
  | .complex dtype t =>
    (gather (addedRow t.shape) col).map fun rows =>
      .complex dtype ((accumulated t.shape rows).map (·, 0))
  | .integral dtype t =>
    if IsCounter k then
      ((gather counted col).map fun counts => (counts.map Prod.fst).sum).bind fun total =>
        (castTotal dtype total).map fun n => .integral dtype (Tensor.scalar n)
    else
      some (.integral dtype t)
  | v => some v

/-- What the checkpoints must have for there to be an averaged leaf. -/
def PytorchFits (castTotal : String → ℚ → Option ℤ) (k : String) (v : TorchLeaf τ)
    (col : List (Found (TorchLeaf τ) × ℚ)) : Prop :=
  match v with
  | .floating _ t => ∀ e ∈ col, ∃ row, addedRow t.shape e.1 = some row
  | .complex _ t => ∀ e ∈ col, ∃ row, addedRow t.shape e.1 = some row
  | .integral dtype _ => IsCounter k → (∀ e ∈ col, ∃ n, counted e.1 = some n) ∧
      ∃ n, castTotal dtype (col.map fun e => (counted e.1).getD 0).sum = some n
  | _ => True

/-- The numbers of a floating-point tensor. -/
def pytorchValue (v : TorchLeaf τ) (i : ℕ) : Option ℚ :=
  match v with
  | .floating _ t => t.entries[i]?
  | _ => none

/-- The numbers a checkpoint contributes to a floating-point tensor. -/
def pytorchContributed (v : TorchLeaf τ) (f : Found (TorchLeaf τ)) (i : ℕ) : Option ℚ :=
  match v with
  | .floating _ t => (addedRow t.shape f).bind fun row => row[i]?
  | _ => none

/-- Tensors of one type and shape, or counters of one type. -/
def PytorchAlike (k : String) (v v' : TorchLeaf τ) (_col : List (Found (TorchLeaf τ) × ℚ)) :
    Prop :=
  match v, v' with
  | .floating dtype t, .floating dtype' t' => dtype = dtype' ∧ t.shape = t'.shape
  | .complex dtype t, .complex dtype' t' => dtype = dtype' ∧ t.shape = t'.shape
  | .integral dtype _, .integral dtype' _ => dtype = dtype' ∧ IsCounter k
  | _, _ => False

theorem pytorchRule_fits (castTotal : String → ℚ → Option ℤ) (k : String) (v : TorchLeaf τ)
    (col : List (Found (TorchLeaf τ) × ℚ)) :
    (∃ v', pytorchRule castTotal k v col = some v') ↔ PytorchFits castTotal k v col := by
  cases v with
  | floating dtype t => exact exists_map_gather
  | complex dtype t => exact exists_map_gather
  | pyNone | other t => simp [pytorchRule, PytorchFits]
  | integral dtype t =>
    by_cases hcounter : IsCounter k
    · simp only [pytorchRule, PytorchFits, hcounter, if_true, true_imp_iff]
      rw [← exists_gather]
      cases h : gather counted col with
      | none => simp
      | some counts =>
        have hsum : (counts.map Prod.fst).sum = (col.map fun e => (counted e.1).getD 0).sum := by
          rw [eq_of_gather h fun _ => 0, standIn, List.map_map]
          rfl
        simp [hsum, Option.map_eq_some_iff]
    · simp [pytorchRule, PytorchFits, hcounter]

theorem pytorchRule_value {castTotal : String → ℚ → Option ℤ} {k : String} {v : TorchLeaf τ}
    {col : List (Found (TorchLeaf τ) × ℚ)} {v' : TorchLeaf τ} {i : ℕ} {x : ℚ}
    (h : pytorchRule castTotal k v col = some v') (hx : pytorchValue v' i = some x) :
    x = total (standIn (pytorchContributed v · i) (fun _ => 0) col) := by
  cases v with
  | floating dtype t =>
    obtain ⟨rows, hrows, rfl⟩ := Option.map_eq_some_iff.mp h
    exact eq_total_of_accumulateAll hrows hx
  | complex dtype t =>
    obtain ⟨rows, -, rfl⟩ := Option.map_eq_some_iff.mp h
    simp [pytorchValue] at hx
  | pyNone | other t =>
    obtain rfl := Option.some.inj h
    simp [pytorchValue] at hx
  | integral dtype t =>
    rw [pytorchRule] at h
    split at h
    · obtain ⟨count, -, h⟩ := Option.bind_eq_some_iff.mp h
      obtain ⟨n, -, rfl⟩ := Option.map_eq_some_iff.mp h
      simp [pytorchValue] at hx
    · obtain rfl := Option.some.inj h
      simp [pytorchValue] at hx

theorem pytorchRule_places {castTotal : String → ℚ → Option ℤ} {k : String} {v : TorchLeaf τ}
    {col : List (Found (TorchLeaf τ) × ℚ)} {v' : TorchLeaf τ} {i : ℕ} {x : ℚ}
    (h : pytorchRule castTotal k v col = some v') (hx : pytorchValue v i = some x) :
    ∃ x', pytorchValue v' i = some x' := by
  cases v with
  | floating dtype t =>
    obtain ⟨rows, -, rfl⟩ := Option.map_eq_some_iff.mp h
    obtain ⟨hi, -⟩ := List.getElem?_eq_some_iff.mp hx
    rw [t.length_entries] at hi
    simp [pytorchValue, accumulated, hi]
  | complex dtype t => simp [pytorchValue] at hx
  | integral dtype t => simp [pytorchValue] at hx
  | pyNone | other t => simp [pytorchValue] at hx

theorem accumulated_perm {rows rows' : List (List ℚ × ℚ)} (h : rows.Perm rows')
    (shape : List ℕ) : accumulated shape rows = accumulated shape rows' := by
  simp only [accumulated, accumulateAll_perm h]

theorem pytorchRule_perm {castTotal : String → ℚ → Option ℤ} {k : String} {v : TorchLeaf τ}
    {col col' : List (Found (TorchLeaf τ) × ℚ)} (h : col.Perm col') :
    pytorchRule castTotal k v col = pytorchRule castTotal k v col' := by
  cases v with
  | floating dtype t => exact map_gather_perm h fun hrows => by rw [accumulated_perm hrows]
  | complex dtype t => exact map_gather_perm h fun hrows => by rw [accumulated_perm hrows]
  | pyNone | other t => rfl
  | integral dtype t =>
    rw [pytorchRule, pytorchRule, map_gather_perm h fun hcounts => (hcounts.map _).sum_eq]

theorem pytorchRule_alike {castTotal : String → ℚ → Option ℤ} {k : String} {v v' : TorchLeaf τ}
    {col : List (Found (TorchLeaf τ) × ℚ)} (h : PytorchAlike k v v' col) :
    pytorchRule castTotal k v col = pytorchRule castTotal k v' col := by
  match v, v', h with
  | .floating dtype t, .floating dtype' t', h =>
    obtain ⟨rfl, hshape⟩ := h
    rw [pytorchRule, pytorchRule, hshape]
  | .complex dtype t, .complex dtype' t', h =>
    obtain ⟨rfl, hshape⟩ := h
    rw [pytorchRule, pytorchRule, hshape]
  | .integral dtype t, .integral dtype' t', h =>
    obtain ⟨rfl, hcounter⟩ := h
    rw [pytorchRule, pytorchRule, if_pos hcounter, if_pos hcounter]

theorem pytorchContributed_self {v : TorchLeaf τ} {i : ℕ} {x : ℚ}
    (h : pytorchValue v i = some x) : pytorchContributed v (.leaf v) i = some x := by
  cases v with
  | floating dtype t =>
    have hrow : addedRow t.shape (.leaf (.floating dtype t) : Found (TorchLeaf τ)) =
        some t.entries := t.broadcastTo_self
    rw [pytorchContributed, hrow]
    exact h
  | complex dtype t => simp [pytorchValue] at h
  | integral dtype t => simp [pytorchValue] at h
  | pyNone | other t => simp [pytorchValue] at h

/-- What PyTorch's format does with leaves. -/
def pytorchAveraging (castTotal : String → ℚ → Option ℤ) : Averaging (TorchLeaf τ) where
  rule := pytorchRule castTotal
  Fits := PytorchFits castTotal
  value := pytorchValue
  contributed := pytorchContributed
  counted _ _ _ := 0
  Alike := PytorchAlike
  rule_fits := pytorchRule_fits castTotal
  rule_value := pytorchRule_value
  rule_places := pytorchRule_places
  rule_perm := pytorchRule_perm
  rule_alike := pytorchRule_alike
  contributed_self := pytorchContributed_self

/-- `_fedavg_pytorch_state_dict`. -/
def fedavgPytorchStateDict (castTotal : String → ℚ → Option ℤ) :
    List (Checkpoint (TorchLeaf τ) × ℚ) → Option (NestedDict (TorchLeaf τ)) :=
  fedavg (pytorchAveraging castTotal)

/-! ## Both formats -/

/-- No text is a number. -/
def plainTexts : JsonReading String := ⟨fun _ => none, fun t => some (t.toList.map toString)⟩

/-- `{"model": {"bias": 1, "curve": [1, 2]}, "name": "a"}` -/
def smallJson : Checkpoint (JsonLeaf String) where
  dict := .dict "model"
    (.leaf "bias" (.item (.number 1)) (.leaf "curve" (.list [.number 1, .number 2]) .nil))
    (.leaf "name" (.item (.other "a")) .nil)
  distinct := by simp [Distinct, NestedDict.get]

/-- `{"model": {"scale": 7, "bias": 5}}` -/
def otherJson : Checkpoint (JsonLeaf String) where
  dict := .dict "model"
    (.leaf "scale" (.item (.number 7)) (.leaf "bias" (.item (.number 5)) .nil)) .nil
  distinct := by simp [Distinct, NestedDict.get]

/-- A state dictionary with one tensor of one entry. -/
def weightOf (q : ℚ) : Checkpoint (TorchLeaf String) where
  dict := .leaf "weight" (.floating "float32" ⟨[1], [q], rfl⟩) .nil
  distinct := by simp [Distinct, NestedDict.get]

/-- An empty state dictionary. -/
def noWeight : Checkpoint (TorchLeaf String) := ⟨.nil, trivial⟩

/-- A total of counters becomes an integer of any type if it is one. -/
def exactTotal (_dtype : String) (q : ℚ) : Option ℤ := if q.den = 1 then some q.num else none

/-- A quarter of one checkpoint and three of another. -/
def quarters {L : Type} (a b : Checkpoint L) : List (Checkpoint L × ℚ) := [(a, 1 / 4), (b, 3 / 4)]

theorem quarters_weights {L : Type} (a b : Checkpoint L) :
    (∀ c ∈ quarters a b, 0 ≤ c.2) ∧ weight (quarters a b) = 1 := by
  constructor
  · simp only [quarters, List.forall_mem_cons]
    norm_num
  · norm_num [quarters, weight]

end Aidars.Training
