import Mathlib.Algebra.BigOperators.Group.List.Basic
import Mathlib.Data.List.OfFn
import Mathlib.Tactic.Ring

/-!
# Tensors

A `Tensor` has a shape and as many entries as the shape says, the last dimension running fastest.
A tensor whose dimensions are, from the last on, those of a shape or one can be broadcast to the
shape (`broadcastTo`): along a dimension of one, and along those the tensor does not have, its
entries are repeated. Broadcast to its own shape it is itself (`broadcastTo_self`).
-/

namespace Aidars

/-- A shape and its entries. -/
structure Tensor (α : Type*) where
  shape : List ℕ
  entries : List α
  length_entries : entries.length = shape.prod
  deriving DecidableEq

namespace Tensor

variable {α β : Type*}

theorem ext_entries {t u : Tensor α} (hshape : t.shape = u.shape) (h : t.entries = u.entries) :
    t = u := by
  cases t
  cases u
  cases hshape
  cases h
  rfl

/-- A tensor without dimensions. -/
def scalar (a : α) : Tensor α := ⟨[], [a], rfl⟩

/-- Apply a function to each entry. -/
def map (f : α → β) (t : Tensor α) : Tensor β :=
  ⟨t.shape, t.entries.map f, by rw [List.length_map, t.length_entries]⟩

/-- The entry of a tensor of one. -/
def item (t : Tensor α) : Option α :=
  match t.entries with
  | [a] => some a
  | _ => none

/-- Whether dimensions can be broadcast to a shape, both from the last one on. -/
def broadcasts : List ℕ → List ℕ → Bool
  | _, [] => true
  | [], _ :: _ => false
  | n :: shape, m :: dims => (m == n || m == 1) && broadcasts shape dims

/-- The place an entry of a shape is taken from, both from the last dimension on. -/
def broadcastIndex : List ℕ → List ℕ → ℕ → ℕ
  | _, [], _ => 0
  | [], _ :: _, _ => 0
  | n :: shape, m :: dims, i =>
    (if m = 1 then 0 else i % n) + m * broadcastIndex shape dims (i / n)

theorem broadcastIndex_lt {shape dims : List ℕ} (h : broadcasts shape dims) {i : ℕ}
    (hi : i < shape.prod) : broadcastIndex shape dims i < dims.prod := by
  induction shape generalizing dims i with
  | nil =>
    cases dims with
    | nil => simp [broadcastIndex]
    | cons m dims => simp [broadcasts] at h
  | cons n shape ih =>
    cases dims with
    | nil => simp [broadcastIndex]
    | cons m dims =>
      simp only [broadcasts, Bool.and_eq_true, Bool.or_eq_true, beq_iff_eq] at h
      obtain ⟨hm, hrest⟩ := h
      rw [List.prod_cons] at hi ⊢
      have hn : 0 < n := Nat.pos_of_ne_zero (by rintro rfl; simp at hi)
      have hlater : broadcastIndex shape dims (i / n) + 1 ≤ dims.prod :=
        ih hrest (Nat.div_lt_of_lt_mul hi)
      have hdigit : (if m = 1 then 0 else i % n) < m := by
        split
        · omega
        · rcases hm with rfl | rfl
          · exact Nat.mod_lt i hn
          · contradiction
      calc (if m = 1 then 0 else i % n) + m * broadcastIndex shape dims (i / n)
          < m + m * broadcastIndex shape dims (i / n) := by omega
        _ = m * (broadcastIndex shape dims (i / n) + 1) := by ring
        _ ≤ m * dims.prod := Nat.mul_le_mul_left m hlater

theorem broadcasts_self (shape : List ℕ) : broadcasts shape shape := by
  induction shape with
  | nil => rfl
  | cons n shape ih => simp [broadcasts, ih]

theorem broadcastIndex_self {shape : List ℕ} {i : ℕ} (hi : i < shape.prod) :
    broadcastIndex shape shape i = i := by
  induction shape generalizing i with
  | nil =>
    rw [List.prod_nil] at hi
    simp [broadcastIndex]
    omega
  | cons n shape ih =>
    rw [List.prod_cons] at hi
    rw [broadcastIndex, ih (Nat.div_lt_of_lt_mul hi)]
    split
    · simp_all
    · exact Nat.mod_add_div i n

/-- The entries of a tensor broadcast to a shape. -/
def broadcastTo (shape : List ℕ) (t : Tensor α) : Option (List α) :=
  if h : broadcasts shape.reverse t.shape.reverse then
    some (List.ofFn fun i : Fin shape.prod =>
      t.entries.get ⟨broadcastIndex shape.reverse t.shape.reverse i, by
        rw [t.length_entries, ← t.shape.prod_reverse]
        exact broadcastIndex_lt h (by rw [shape.prod_reverse]; exact i.isLt)⟩)
  else
    none

/-- Broadcast to its own shape, a tensor is itself. -/
theorem broadcastTo_self (t : Tensor α) : t.broadcastTo t.shape = some t.entries := by
  rw [broadcastTo, dif_pos (broadcasts_self _)]
  congr 1
  apply List.ext_getElem
  · rw [List.length_ofFn, t.length_entries]
  intro i hi _
  rw [List.length_ofFn] at hi
  have hself : broadcastIndex t.shape.reverse t.shape.reverse i = i :=
    broadcastIndex_self (by rw [t.shape.prod_reverse]; exact hi)
  simp [hself]

end Tensor

end Aidars
