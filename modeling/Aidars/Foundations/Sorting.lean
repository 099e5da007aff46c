import Aidars.Foundations.FloatArithmetic
import Mathlib.Data.List.Lex
import Mathlib.Data.List.Pairwise
import Mathlib.Data.List.Sort
import Mathlib.Data.Prod.Lex
import Mathlib.Data.String.Basic

/-!
# Sorting by tuples

`sortBy key` sorts a list by the tuples `key` gives, compared item by item as Python compares them.
A tuple without a `nan` has a place in a linear order (`Tuple.code`), so that a list of values with
different such keys has one sorted order (`pairwise_sortBy`), and two keys sort it alike exactly
when they compare its values alike (`eq_iff_of_pairwise`).
-/

namespace Aidars

/-! ## Tuples -/

/-- An item of a key. -/
inductive KeyItem
  | num (x : PyFloat)
  | str (s : String)
  deriving DecidableEq

namespace KeyItem

/-- The comparison `<` of items; that of a number with a string, which raises, is not relied on. -/
def lt : KeyItem → KeyItem → Bool
  | num a, num b => a.lt b
  | str a, str b => a < b
  | num _, str _ => true
  | str _, num _ => false

/-- The place of an item in a linear order. -/
def code : KeyItem → ℤ ×ₗ ℚ ×ₗ String
  | num .negInf => toLex (-1, toLex (0, ""))
  | num (.finite q) => toLex (0, toLex (q, ""))
  | num .posInf | num .nan => toLex (1, toLex (0, ""))
  | str s => toLex (2, toLex (0, s))

variable {a b : KeyItem}

theorem code_inj (ha : a ≠ num .nan) (hb : b ≠ num .nan) : a.code = b.code ↔ a = b := by
  rcases a with (_ | _ | _ | _) | _ <;> rcases b with (_ | _ | _ | _) | _ <;>
    simp_all [code]

theorem lt_iff_code_lt (ha : a ≠ num .nan) (hb : b ≠ num .nan) : a.lt b ↔ a.code < b.code := by
  rcases a with (_ | _ | _ | _) | _ <;> rcases b with (_ | _ | _ | _) | _ <;>
    simp_all [code, lt, PyFloat.lt, Prod.Lex.lt_iff]

end KeyItem

/-- A key of a sort. -/
abbrev Tuple := List KeyItem

namespace Tuple

/-- The comparison `<` of tuples: by their first different items. -/
def lt : Tuple → Tuple → Bool
  | _, [] => false
  | [], _ :: _ => true
  | a :: as, b :: bs => if a = b then lt as bs else a.lt b

/-- No item is `nan`. -/
def Comparable (t : Tuple) : Prop := ∀ a ∈ t, a ≠ .num .nan

/-- The place of a tuple in a linear order. -/
def code (t : Tuple) : List (ℤ ×ₗ ℚ ×ₗ String) := t.map KeyItem.code

theorem code_inj {s t : Tuple} (hs : s.Comparable) (ht : t.Comparable) :
    code s = code t ↔ s = t := by
  constructor
  · intro h
    induction s generalizing t with
    | nil => exact (List.map_eq_nil_iff.1 h.symm).symm
    | cons a s ih =>
      cases t with
      | nil => cases h
      | cons b t =>
        obtain ⟨ha, hs⟩ := List.forall_mem_cons.1 hs
        obtain ⟨hb, ht⟩ := List.forall_mem_cons.1 ht
        obtain ⟨hab, hst⟩ := List.cons.inj h
        rw [(KeyItem.code_inj ha hb).1 hab, ih hs ht hst]
  · exact congrArg code

theorem lt_iff_code_lt {s t : Tuple} (hs : s.Comparable) (ht : t.Comparable) :
    lt s t ↔ code s < code t := by
  induction s generalizing t with
  | nil => cases t <;> simp [lt, code]
  | cons a s ih =>
    cases t with
    | nil => simp [lt, code]
    | cons b t =>
      obtain ⟨ha, hs⟩ := List.forall_mem_cons.1 hs
      obtain ⟨hb, ht⟩ := List.forall_mem_cons.1 ht
      have hcode : code (a :: s) < code (b :: t) ↔
          a.code < b.code ∨ a.code = b.code ∧ code s < code t := List.cons_lt_cons_iff
      rw [hcode, KeyItem.code_inj ha hb, ← ih hs ht, ← KeyItem.lt_iff_code_lt ha hb, lt]
      split_ifs with h
      · have hirrefl : ¬ a.lt b := by
          rw [KeyItem.lt_iff_code_lt ha hb, h]
          exact lt_irrefl _
        rw [or_iff_right hirrefl, and_iff_right h]
      · rw [or_iff_left fun hab => h hab.1]

end Tuple

/-! ## Stable sorts -/

section Stable

variable {α : Type*} {r : α → α → Prop} [DecidableRel r] {R : α → α → Prop} {l : List α} {a : α}

theorem pairwise_orderedInsert_stable (htotal : ∀ a b, r a b ∨ r b a)
    (htrans : ∀ a b c, r a b → r b c → r a c) (ha : ∀ b ∈ l, R a b)
    (hl : l.Pairwise fun a b => r a b ∧ (r b a → R a b)) :
    (l.orderedInsert r a).Pairwise fun a b => r a b ∧ (r b a → R a b) := by
  induction l with
  | nil => exact List.pairwise_singleton _ a
  | cons b l ih =>
    rw [List.forall_mem_cons] at ha
    obtain ⟨hb, hl⟩ := List.pairwise_cons.1 hl
    rw [List.orderedInsert_cons]
    split_ifs with hab
    · refine List.pairwise_cons.2 ⟨fun x hx => ?_, List.pairwise_cons.2 ⟨hb, hl⟩⟩
      rcases List.mem_cons.1 hx with rfl | hx
      · exact ⟨hab, fun _ => ha.1⟩
      · exact ⟨htrans a b x hab (hb x hx).1, fun _ => ha.2 x hx⟩
    · refine List.pairwise_cons.2 ⟨fun x hx => ?_, ih ha.2 hl⟩
      rcases (List.mem_orderedInsert r).1 hx with rfl | hx
      · exact ⟨(htotal b x).resolve_right hab, fun h => absurd h hab⟩
      · exact hb x hx

/-- **A sort keeps the order of what it does not distinguish.** -/
theorem pairwise_insertionSort_stable (htotal : ∀ a b, r a b ∨ r b a)
    (htrans : ∀ a b c, r a b → r b c → r a c) (hl : l.Pairwise R) :
    (l.insertionSort r).Pairwise fun a b => r a b ∧ (r b a → R a b) := by
  induction l with
  | nil => exact List.Pairwise.nil
  | cons a l ih =>
    obtain ⟨ha, hl⟩ := List.pairwise_cons.1 hl
    rw [List.insertionSort_cons]
    exact pairwise_orderedInsert_stable htotal htrans
      (fun b hb => ha b ((List.mem_insertionSort r).1 hb)) (ih hl)

end Stable

/-! ## Sorted lists -/

variable {α : Type*} {key key₁ key₂ : α → Tuple} {l l' : List α}

/-- The first key is not greater than the second. -/
def keyLe (key : α → Tuple) (a b : α) : Prop := (key b).lt (key a) = false

instance (key : α → Tuple) : DecidableRel (keyLe key) := fun a b =>
  inferInstanceAs (Decidable ((key b).lt (key a) = false))

/-- Sort a list by a key. -/
def sortBy (key : α → Tuple) (l : List α) : List α := l.insertionSort (keyLe key)

/-- The keys of the values of a list can be compared, and differ. -/
structure Separates (key : α → Tuple) (l : List α) : Prop where
  comparable : ∀ a ∈ l, (key a).Comparable
  inj : ∀ a ∈ l, ∀ b ∈ l, key a = key b → a = b

namespace Separates

theorem keyLe_iff (h : Separates key l) {a b : α} (ha : a ∈ l) (hb : b ∈ l) :
    keyLe key a b ↔ (key a).code ≤ (key b).code := by
  rw [keyLe, ← Bool.not_eq_true, Tuple.lt_iff_code_lt (h.comparable b hb) (h.comparable a ha),
    not_lt]

theorem antisymm (h : Separates key l) {a b : α} (ha : a ∈ l) (hb : b ∈ l)
    (hab : keyLe key a b) (hba : keyLe key b a) : a = b := by
  rw [h.keyLe_iff ha hb] at hab
  rw [h.keyLe_iff hb ha] at hba
  exact h.inj a ha b hb ((Tuple.code_inj (h.comparable a ha) (h.comparable b hb)).1
    (le_antisymm hab hba))

end Separates

/-- The sorted list is sorted. -/
theorem pairwise_sortBy (h : ∀ a ∈ l, (key a).Comparable) :
    (sortBy key l).Pairwise (keyLe key) := by
  have hs : ∀ a b : { a // a ∈ l }, keyLe key a.1 b.1 ↔ (key a).code ≤ (key b).code := by
    intro a b
    rw [keyLe, ← Bool.not_eq_true, Tuple.lt_iff_code_lt (h b b.2) (h a a.2), not_lt]
  -- among the values of the list the comparison is that of a linear order
  have htotal : Std.Total fun a b : { a // a ∈ l } => keyLe key a.1 b.1 :=
    ⟨fun a b => by rw [hs, hs]; exact le_total _ _⟩
  have htrans : IsTrans _ fun a b : { a // a ∈ l } => keyLe key a.1 b.1 :=
    ⟨fun a b c => by rw [hs, hs, hs]; exact le_trans⟩
  have hsorted :=
    List.pairwise_insertionSort (fun a b : { a // a ∈ l } => keyLe key a.1 b.1) l.attach
  have hmap : (l.attach.insertionSort fun a b => keyLe key a.1 b.1).map Subtype.val =
      sortBy key l := by
    rw [List.map_insertionSort (r := fun a b : { a // a ∈ l } => keyLe key a.1 b.1)
      (s := keyLe key) _ _ fun _ _ _ _ => Iff.rfl, List.attach_map_subtype_val]
    rfl
  rw [← hmap, List.pairwise_map]
  exact hsorted

/-- Sorted lists of the same values are equal exactly when the orders agree on the values. -/
theorem eq_iff_of_pairwise (h₁ : Separates key₁ l) (h₂ : Separates key₂ l)
    (hl : l.Pairwise (keyLe key₁)) (hl' : l'.Pairwise (keyLe key₂)) (hp : l.Perm l') :
    l = l' ↔ ∀ a ∈ l, ∀ b ∈ l, keyLe key₁ a b → keyLe key₂ a b := by
  constructor
  · rintro rfl
    have hboth : l.Pairwise fun a b =>
        (keyLe key₁ a b → keyLe key₂ a b) ∧ (keyLe key₁ b a → keyLe key₂ b a) := by
      refine (hl.and hl').imp_of_mem fun ha hb hab => ⟨fun _ => hab.2, fun hba => ?_⟩
      rw [h₁.antisymm ha hb hab.1 hba]
      exact (h₂.keyLe_iff hb hb).2 le_rfl
    have hflip : l.Pairwise fun b a =>
        (keyLe key₁ a b → keyLe key₂ a b) ∧ (keyLe key₁ b a → keyLe key₂ b a) :=
      hboth.imp And.symm
    have hrefl : ∀ a ∈ l, keyLe key₂ a a := fun a ha => (h₂.keyLe_iff ha ha).2 le_rfl
    exact fun a ha b hb => (hboth.forall_of_forall_of_flip
      (fun a ha => ⟨fun _ => hrefl a ha, fun _ => hrefl a ha⟩) hflip ha hb).1
  · intro h
    have hl₂ : l.Pairwise (keyLe key₂) := hl.imp_of_mem fun ha hb => h _ ha _ hb
    exact hp.eq_of_pairwise (fun a b ha hb => h₂.antisymm ha (hp.mem_iff.2 hb)) hl₂ hl'

end Aidars
