import Aidars.Foundations.Collections

/-!
# A single pass over links

A loop goes over links between elements once and adds to a set on the way: a marked element is
added where the loop meets the mark, and both ends of a link are added where the loop meets the link
if one of them is in the set by then. Links that it has passed are not looked at again.

So what ends up in the set is what a chain of links leads to that the loop meets one after the other
(`mem_foldl_meet`), which depends on the order of the links. A later part of the loop only adds
(`mem_foldl_of_mem`).
-/

namespace Aidars.SinglePass

variable {α : Type*}

/-- What the loop meets. -/
inductive Event (α : Type*)
  /-- An element that is added in any case. -/
  | mark (key : α)
  /-- An element that names another one. -/
  | link (key target : α)

/-- The element that has the mark or names the other one. -/
def Event.key : Event α → α
  | .mark key => key
  | .link key _ => key

section Loop

variable [DecidableEq α] (present : α → Prop) [DecidablePred present]

/-- Meet a mark or a link. The named end of a link is added only if it is present. -/
def meet (seen : PySet α) : Event α → PySet α
  | .mark key => seen.insert key
  | .link key target =>
    if key ∈ seen ∨ target ∈ seen then
      if present target then (seen.insert key).insert target else seen.insert key
    else seen

variable {present} {seen : PySet α}

@[simp] theorem mem_meet_mark {key a : α} :
    a ∈ meet present seen (.mark key) ↔ a = key ∨ a ∈ seen := PySet.mem_insert

@[simp] theorem mem_meet_link {key target a : α} :
    a ∈ meet present seen (.link key target) ↔
      a ∈ seen ∨ ((key ∈ seen ∨ target ∈ seen) ∧ (a = key ∨ (a = target ∧ present target))) := by
  simp only [meet]
  split_ifs with hmet hpresent <;> simp [*] <;> tauto

theorem mem_meet_of_mem {a : α} (e : Event α) (h : a ∈ seen) : a ∈ meet present seen e := by
  cases e <;> simp [h]

theorem mem_foldl_of_mem {a : α} (events : List (Event α)) (h : a ∈ seen) :
    a ∈ events.foldl (meet present) seen := by
  induction events generalizing seen with
  | nil => exact h
  | cons e events ih => exact ih (mem_meet_of_mem e h)

/-- A mark that the loop meets adds its element. -/
theorem mem_foldl_of_mark {events : List (Event α)} {key : α} (h : .mark key ∈ events) :
    key ∈ events.foldl (meet present) seen := by
  obtain ⟨before, after, rfl⟩ := List.append_of_mem h
  rw [List.foldl_append, List.foldl_cons]
  exact mem_foldl_of_mem after (by simp)

/-- A link to an element of the set adds the other end. -/
theorem key_mem_foldl {events : List (Event α)} {key target : α}
    (h : .link key target ∈ events) (htarget : target ∈ seen) :
    key ∈ events.foldl (meet present) seen := by
  obtain ⟨before, after, rfl⟩ := List.append_of_mem h
  rw [List.foldl_append, List.foldl_cons]
  have hseen : target ∈ before.foldl (meet present) seen := mem_foldl_of_mem before htarget
  exact mem_foldl_of_mem after (mem_meet_link.mpr (.inr ⟨.inr hseen, .inl rfl⟩))

/-- Links from one element add nothing as long as they do not add the element itself. -/
theorem mem_or_key_mem_foldl {events : List (Event α)} {key a : α}
    (hkey : ∀ e ∈ events, e.key = key) (h : a ∈ events.foldl (meet present) seen) :
    a ∈ seen ∨ key ∈ events.foldl (meet present) seen := by
  induction events generalizing seen with
  | nil => exact .inl h
  | cons e events ih =>
    obtain ⟨he, hkey⟩ := List.forall_mem_cons.mp hkey
    rw [List.foldl_cons]
    refine (ih hkey h).elim (fun h => ?_) .inr
    cases e with
    | mark k =>
      obtain rfl : k = key := he
      exact .inr (mem_foldl_of_mem events (by simp))
    | link k target =>
      obtain rfl : k = key := he
      refine (mem_meet_link.mp h).imp_right fun h => ?_
      exact mem_foldl_of_mem events (mem_meet_link.mpr (.inr ⟨h.1, .inl rfl⟩))

end Loop

/-! ## Chains -/

variable (present : α → Prop) (start : α → Prop)

/-- A chain of links leads from a starting element or a mark to an element. -/
inductive Leads : List (Event α) → α → Prop
  | start {a : α} (h : start a) : Leads [] a
  | mark (key : α) : Leads [.mark key] key
  | link {chain : List (Event α)} {key target a b : α} (h : Leads chain a)
      (ha : a = key ∨ a = target) (hb : b = key ∨ (b = target ∧ present target)) :
      Leads (chain ++ [.link key target]) b

/-- Some chain that the loop meets one link after the other leads to an element. -/
def Reaches (events : List (Event α)) (a : α) : Prop :=
  ∃ chain, chain.Sublist events ∧ Leads present start chain a

variable {present start}

theorem reaches_nil {a : α} : Reaches present start [] a ↔ start a := by
  constructor
  · rintro ⟨chain, hsub, hleads⟩
    obtain rfl := List.sublist_nil.mp hsub
    generalize hchain : ([] : List (Event α)) = chain at hleads
    cases hleads with
    | start h => exact h
    | mark => cases hchain
    | link => simp at hchain
  · exact fun h => ⟨[], List.Sublist.refl _, .start h⟩

theorem Reaches.append {events : List (Event α)} {a : α} (h : Reaches present start events a)
    (later : List (Event α)) : Reaches present start (events ++ later) a := by
  obtain ⟨chain, hsub, hleads⟩ := h
  exact ⟨chain, hsub.trans (List.sublist_append_left ..), hleads⟩

/-- A chain either ends before the last event or with it. -/
theorem reaches_concat {events : List (Event α)} {e : Event α} {a : α} :
    Reaches present start (events ++ [e]) a ↔
      Reaches present start events a ∨ e = .mark a ∨
        ∃ key target, e = .link key target ∧
          (Reaches present start events key ∨ Reaches present start events target) ∧
          (a = key ∨ (a = target ∧ present target)) := by
  constructor
  · rintro ⟨chain, hsub, hleads⟩
    obtain ⟨front, last, rfl, hfront, hlast⟩ := List.sublist_append_iff.mp hsub
    rcases List.sublist_singleton.mp hlast with rfl | rfl
    · rw [List.append_nil] at hleads
      exact .inl ⟨front, hfront, hleads⟩
    · refine .inr ?_
      generalize hchain : front ++ [e] = chain at hleads
      cases hleads with
      | start => simp at hchain
      | mark =>
        obtain ⟨-, he⟩ := (List.append_eq_singleton_iff.mp hchain).resolve_right (by simp)
        exact .inl (List.singleton_inj.mp he)
      | link h hkey hend =>
        obtain ⟨rfl, he⟩ := List.append_inj' hchain rfl
        obtain rfl := List.singleton_inj.mp he
        refine .inr ⟨_, _, rfl, ?_, hend⟩
        rcases hkey with rfl | rfl
        · exact .inl ⟨front, hfront, h⟩
        · exact .inr ⟨front, hfront, h⟩
  · rintro (h | rfl | ⟨key, target, rfl, h | h, hend⟩)
    · exact h.append [e]
    · exact ⟨[.mark a], List.sublist_append_right .., .mark a⟩
    · obtain ⟨chain, hsub, hleads⟩ := h
      exact ⟨chain ++ [.link key target], hsub.append (List.Sublist.refl _),
        .link hleads (.inl rfl) hend⟩
    · obtain ⟨chain, hsub, hleads⟩ := h
      exact ⟨chain ++ [.link key target], hsub.append (List.Sublist.refl _),
        .link hleads (.inr rfl) hend⟩

/-- **The loop finds what chains lead to.** -/
theorem mem_foldl_meet [DecidableEq α] [DecidablePred present] {seen : PySet α}
    (events : List (Event α)) (a : α) :
    a ∈ events.foldl (meet present) seen ↔ Reaches present (· ∈ seen) events a := by
  induction events using List.reverseRecOn generalizing a with
  | nil => exact reaches_nil.symm
  | append_singleton events e ih =>
    rw [List.foldl_append, List.foldl_cons, List.foldl_nil, reaches_concat, ← ih]
    cases e with
    | mark key =>
      rw [mem_meet_mark]
      simp [or_comm, eq_comm]
    | link key target =>
      rw [mem_meet_link]
      simp [← ih]

end Aidars.SinglePass
