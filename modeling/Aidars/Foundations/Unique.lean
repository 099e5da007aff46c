import Mathlib.Data.List.Nodup
import Mathlib.Data.List.Perm.Subperm

/-!
# One value for each key

`keepFirst key l` keeps of the values of a list that have the same key the first one. Their keys
are those of the list, each of them once.

`perm_keys_of_length_eq` compares them with another list of keys: if the keys of the list are among
these, and no more of these are there than values are kept, they are the same keys.
-/

namespace Aidars

variable {α κ : Type*} [DecidableEq κ] (key : α → κ)

/-- The values whose keys were not seen before. -/
def unseen (seen : List κ) : List α → List α
  | [] => []
  | a :: l => if key a ∈ seen then unseen seen l else a :: unseen (key a :: seen) l

/-- The first value of a list with each key. -/
def keepFirst (l : List α) : List α := unseen key [] l

variable {key} {seen ks : List κ} {l : List α} {a : α}

theorem unseen_sublist (seen : List κ) (l : List α) : (unseen key seen l).Sublist l := by
  induction l generalizing seen with
  | nil => exact .slnil
  | cons a l ih =>
    unfold unseen
    split_ifs
    · exact (ih seen).cons a
    · exact (ih _).cons_cons a

theorem key_notMem_of_mem_unseen (ha : a ∈ unseen key seen l) : key a ∉ seen := by
  induction l generalizing seen with
  | nil => cases ha
  | cons b l ih =>
    unfold unseen at ha
    split_ifs at ha with hb
    · exact ih ha
    · obtain rfl | ha := List.mem_cons.1 ha
      · exact hb
      · exact fun hmem => ih ha (List.mem_cons_of_mem _ hmem)

theorem nodup_map_unseen (seen : List κ) (l : List α) : ((unseen key seen l).map key).Nodup := by
  induction l generalizing seen with
  | nil => exact List.nodup_nil
  | cons a l ih =>
    unfold unseen
    split_ifs
    · exact ih seen
    · refine List.nodup_cons.2 ⟨fun hmem => ?_, ih _⟩
      obtain ⟨b, hb, heq⟩ := List.mem_map.1 hmem
      exact key_notMem_of_mem_unseen hb (heq ▸ List.mem_cons_self)

theorem key_mem_unseen (ha : a ∈ l) (hseen : key a ∉ seen) :
    key a ∈ (unseen key seen l).map key := by
  induction l generalizing seen with
  | nil => cases ha
  | cons b l ih =>
    unfold unseen
    split_ifs with hb
    · obtain rfl | ha := List.mem_cons.1 ha
      · exact absurd hb hseen
      · exact ih ha hseen
    · rw [List.map_cons, List.mem_cons]
      by_cases heq : key a = key b
      · exact .inl heq
      · obtain rfl | ha := List.mem_cons.1 ha
        · exact absurd rfl heq
        · exact .inr (ih ha fun hmem => (List.mem_cons.1 hmem).elim heq hseen)

theorem keepFirst_sublist (l : List α) : (keepFirst key l).Sublist l := unseen_sublist [] l

theorem nodup_map_keepFirst (l : List α) : ((keepFirst key l).map key).Nodup :=
  nodup_map_unseen [] l

/-- The keys of what is kept are the keys of the list. -/
theorem mem_map_keepFirst {k : κ} : k ∈ (keepFirst key l).map key ↔ k ∈ l.map key := by
  refine ⟨fun hk => ((keepFirst_sublist l).map key).subset hk, fun hk => ?_⟩
  obtain ⟨a, ha, rfl⟩ := List.mem_map.1 hk
  exact key_mem_unseen ha List.not_mem_nil

/-- **Keys that are among as many keys as there are of them are these keys.** -/
theorem perm_keys_of_length_eq (hsub : l.map key ⊆ ks)
    (hlen : ks.length = (keepFirst key l).length) : ((keepFirst key l).map key).Perm ks := by
  have hsubset : (keepFirst key l).map key ⊆ ks := fun k hk => hsub (mem_map_keepFirst.1 hk)
  refine ((nodup_map_keepFirst l).subperm hsubset).perm_of_length_le ?_
  rw [List.length_map]
  omega

end Aidars
