import Aidars.Attempt.Basic
import Mathlib.Tactic.Common

/-!
# The attempt ledger

`Ledger reg` states that the two dictionaries of an attempt registry describe one ledger: the
attempts of a workload are numbered from one in creation order, and every record is filed under its
own identifier and listed under its own workload. Because identifiers are injective
(`makeAttemptId_inj`), a created attempt never replaces another.

Two counts are followed through the operations. `attemptsUsed` counts the attempts of a workload
against its retry budget, and `activeCount` the active attempts that name a worker. All operations
but creation are `Moves`: each attempt goes over into one with the same identity.
-/

namespace Aidars

theorem toList_toString_nat (n : ℕ) : (toString n).toList = Nat.toDigits 10 n := by
  simp [toString, Nat.repr]

theorem hash_notMem_toDigits (n : ℕ) : '#' ∉ Nat.toDigits 10 n := by
  intro h
  have := Nat.isDigit_of_mem_toDigits (by omega) (by omega) h
  revert this
  decide

/-- Two texts that agree and have no separator after their last one agree on both sides of it. -/
theorem append_sep_inj {α : Type*} {sep : α} {l₁ l₂ d₁ d₂ : List α} (h₁ : sep ∉ d₁) (h₂ : sep ∉ d₂)
    (h : l₁ ++ sep :: d₁ = l₂ ++ sep :: d₂) : l₁ = l₂ ∧ d₁ = d₂ := by
  rw [List.append_eq_append_iff] at h
  rcases h with ⟨m, hm, hd⟩ | ⟨m, hm, hd⟩
  · cases m with
    | nil =>
      rw [List.nil_append] at hd
      exact ⟨by rw [hm, List.append_nil], (List.cons.inj hd).2⟩
    | cons c m =>
      rw [List.cons_append] at hd
      exact absurd ((List.cons.inj hd).2 ▸ by simp : sep ∈ d₁) h₁
  · cases m with
    | nil =>
      rw [List.nil_append] at hd
      exact ⟨by rw [hm, List.append_nil], (List.cons.inj hd).2.symm⟩
    | cons c m =>
      rw [List.cons_append] at hd
      exact absurd ((List.cons.inj hd).2 ▸ by simp : sep ∈ d₂) h₂

/-- **Attempt identifiers are injective.** -/
theorem makeAttemptId_inj {w₁ w₂ : String} {n₁ n₂ : ℕ}
    (h : makeAttemptId w₁ n₁ = makeAttemptId w₂ n₂) : w₁ = w₂ ∧ n₁ = n₂ := by
  have hl := congrArg String.toList h
  simp only [makeAttemptId, String.toList_append, toList_toString_nat] at hl
  rw [List.append_assoc, List.append_assoc] at hl
  obtain ⟨hw, hd⟩ := append_sep_inj (hash_notMem_toDigits n₁) (hash_notMem_toDigits n₂) hl
  refine ⟨String.toList_inj.1 hw, ?_⟩
  have := congrArg (fun d => Nat.ofDigitChars 10 d 0) hd
  simpa only [Nat.ofDigitChars_ten_toDigits] using this

namespace AttemptRegistry

variable {reg : AttemptRegistry} {w w' id id' : String} {d : Option PlacementDecision}
  {g : Option ExecutionGroup} {f : AttemptRecord → AttemptRecord}

/-- The dictionaries of a registry describe one ledger. -/
structure Ledger (reg : AttemptRegistry) : Prop where
  numbered : ∀ w, reg.idsOf w =
    (List.range (reg.idsOf w).length).map fun i => makeAttemptId w (i + 1)
  filed : ∀ id r, reg.getAttempt id = some r → r.attemptId = id ∧ id ∈ reg.idsOf r.workloadId
  present : ∀ w, ∀ id ∈ reg.idsOf w, ∃ r, reg.getAttempt id = some r ∧ r.workloadId = w

theorem idsOf_createAttempt : (reg.createAttempt w d g).idsOf w' =
    if w' = w then reg.idsOf w ++ [reg.nextId w] else reg.idsOf w' := by
  simp only [createAttempt, idsOf, Dict.get?_set]
  split_ifs <;> rfl

theorem getAttempt_createAttempt : (reg.createAttempt w d g).getAttempt id =
    if id = reg.nextId w then some (reg.newAttempt w d g) else reg.getAttempt id := by
  simp only [createAttempt, getAttempt, Dict.get?_set]

@[simp] theorem idsOf_update : (reg.update id f).idsOf w = reg.idsOf w := rfl

theorem getAttempt_update : (reg.update id f).getAttempt id' =
    if id' = id then (reg.getAttempt id).map f else reg.getAttempt id' := by
  simp only [update, getAttempt, Dict.get?_modify]

namespace Ledger

theorem empty : Ledger {} := by
  refine ⟨fun w => rfl, fun id r h => ?_, fun w id h => ?_⟩
  · simp [getAttempt] at h
  · simp [idsOf] at h

/-- The identifiers of a workload's attempts are its first numbers. -/
theorem mem_idsOf (hl : Ledger reg) :
    id ∈ reg.idsOf w ↔ ∃ i < (reg.idsOf w).length, makeAttemptId w (i + 1) = id := by
  rw [hl.numbered w]
  simp

theorem nodup_idsOf (hl : Ledger reg) (w : String) : (reg.idsOf w).Nodup := by
  rw [hl.numbered w]
  refine List.Nodup.map (fun i j hij => ?_) List.nodup_range
  have := (makeAttemptId_inj hij).2
  omega

theorem getAttempt_nextId (hl : Ledger reg) (w : String) :
    reg.getAttempt (reg.nextId w) = none := by
  by_contra hne
  obtain ⟨r, hr⟩ := Option.ne_none_iff_exists'.1 hne
  obtain ⟨-, hmem⟩ := hl.filed _ r hr
  obtain ⟨i, hi, he⟩ := hl.mem_idsOf.1 hmem
  obtain ⟨hw, hn⟩ := makeAttemptId_inj he
  rw [hw] at hi
  omega

theorem nextId_notMem (hl : Ledger reg) (w w' : String) : reg.nextId w ∉ reg.idsOf w' := by
  intro h
  obtain ⟨r, hr, -⟩ := hl.present w' _ h
  rw [hl.getAttempt_nextId w] at hr
  cases hr

theorem createAttempt (hl : Ledger reg) (w : String) (d : Option PlacementDecision)
    (g : Option ExecutionGroup) : Ledger (reg.createAttempt w d g) := by
  refine ⟨fun w' => ?_, fun id r hr => ?_, fun w' id hid => ?_⟩
  · rw [idsOf_createAttempt]
    split_ifs with hw
    · subst hw
      have hn := hl.numbered w'
      rw [List.length_append, List.length_singleton, List.range_succ, List.map_append, ← hn]
      rfl
    · exact hl.numbered w'
  · rw [getAttempt_createAttempt] at hr
    rw [idsOf_createAttempt]
    split_ifs at hr with hid
    · obtain rfl := Option.some.inj hr
      exact ⟨hid.symm, by simp [newAttempt, hid]⟩
    · obtain ⟨h₁, h₂⟩ := hl.filed id r hr
      refine ⟨h₁, ?_⟩
      split_ifs with hw
      · rw [hw] at h₂
        exact List.mem_append_left _ h₂
      · exact h₂
  · rw [idsOf_createAttempt] at hid
    rw [getAttempt_createAttempt]
    split_ifs at hid with hw
    · rcases List.mem_append.1 hid with hid | hid
      · have hne : id ≠ reg.nextId w := fun he => hl.nextId_notMem w w (he ▸ hid)
        rw [if_neg hne, hw]
        exact hl.present w id hid
      · rw [if_pos (List.mem_singleton.1 hid)]
        exact ⟨_, rfl, hw.symm⟩
    · have hne : id ≠ reg.nextId w := fun he => hl.nextId_notMem w w' (he ▸ hid)
      rw [if_neg hne]
      exact hl.present w' id hid

end Ledger

/-! ## Attempts used -/

theorem attemptsUsed_eq (reg : AttemptRegistry) (w : String) : reg.attemptsUsed w =
    (reg.idsOf w).countP fun id => (reg.getAttempt id).any AttemptRecord.counted := by
  unfold attemptsUsed listAttemptsForWorkload
  rw [List.countP_filterMap]
  refine List.countP_congr fun id _ => ?_
  unfold getAttempt
  cases reg.attempts.get? id <;> simp

theorem counted_of_status_ne {r : AttemptRecord} (h : r.status ≠ .succeeded) :
    r.counted = true := by
  simp [AttemptRecord.counted, h]

/-! ## Active attempts -/

/-- The number of active attempts that name a worker. -/
def activeCount (reg : AttemptRegistry) (x : String) : ℕ :=
  reg.attempts.values.countP (AttemptRecord.occupies x)

theorem length_listRunningAttemptsForWorker (reg : AttemptRegistry) (x : String) :
    (reg.listRunningAttemptsForWorker x).length = reg.activeCount x :=
  List.countP_eq_length_filter.symm

/-- The active attempts, counted over the identifiers. -/
theorem activeCount_eq (reg : AttemptRegistry) (x : String) : reg.activeCount x =
    reg.attempts.keys.countP fun id => (reg.getAttempt id).any (AttemptRecord.occupies x) := by
  unfold activeCount Dict.values Dict.keys
  rw [List.countP_map, List.countP_map]
  refine List.countP_congr fun e he => ?_
  have hget : reg.getAttempt e.1 = some e.2 := Dict.mem_entries.1 he
  simp [hget]

/-- A created attempt occupies nobody, until it is assigned. -/
theorem activeCount_createAttempt_le (reg : AttemptRegistry) (w x : String)
    (d : Option PlacementDecision) (g : Option ExecutionGroup) :
    (reg.createAttempt w d g).activeCount x ≤ reg.activeCount x := by
  have hnew : (reg.newAttempt w d g).occupies x = false := rfl
  unfold activeCount createAttempt
  dsimp only
  cases hr : reg.attempts.get? (reg.nextId w) with
  | none =>
    have hc := Dict.countP_set_of_none (AttemptRecord.occupies x) (reg.newAttempt w d g) hr
    rw [hnew, Bool.toNat_false] at hc
    omega
  | some r =>
    have hc := Dict.countP_set_of_some (AttemptRecord.occupies x) (reg.newAttempt w d g) hr
    rw [hnew, Bool.toNat_false] at hc
    omega

/-- A change of one attempt makes it occupy a worker at most once more, and not at all if the
changed attempt occupies the worker only if it did before. -/
theorem activeCount_update_le (reg : AttemptRegistry) (id x : String)
    (f : AttemptRecord → AttemptRecord) :
    (reg.update id f).activeCount x ≤ reg.activeCount x + 1 ∧
      ((∀ r, reg.getAttempt id = some r → (f r).occupies x = true → r.occupies x = true) →
        (reg.update id f).activeCount x ≤ reg.activeCount x) := by
  unfold activeCount update Dict.modify getAttempt
  dsimp only
  cases hr : reg.attempts.get? id with
  | none => exact ⟨Nat.le_succ _, fun _ => Nat.le_refl _⟩
  | some r =>
    have hc := Dict.countP_set_of_some (AttemptRecord.occupies x) (f r) hr
    dsimp only
    refine ⟨?_, fun hf => ?_⟩
    · have hle := Bool.toNat_le ((f r).occupies x)
      omega
    · have hle : ((f r).occupies x).toNat ≤ (r.occupies x).toNat := by
        cases ho : (f r).occupies x with
        | false => exact Nat.zero_le _
        | true =>
          rw [hf r rfl ho]
      omega

/-! ## Moves -/

/-- Every attempt has moved by `R`: none was created or dropped, and each keeps its identity. -/
structure Moves (R : AttemptRecord → AttemptRecord → Prop) (reg reg' : AttemptRegistry) : Prop where
  byWorkload : reg'.byWorkload = reg.byWorkload
  keys : reg'.attempts.keys = reg.attempts.keys
  record : ∀ id r, reg.getAttempt id = some r → ∃ r', reg'.getAttempt id = some r' ∧ R r r' ∧
    r'.attemptId = r.attemptId ∧ r'.workloadId = r.workloadId

namespace Moves

variable {R R₁ R₂ : AttemptRecord → AttemptRecord → Prop} {reg' reg₁ : AttemptRegistry}

theorem refl (hR : ∀ r, R r r) (reg : AttemptRegistry) : Moves R reg reg :=
  ⟨rfl, rfl, fun _ r hr => ⟨r, hr, hR r, rfl, rfl⟩⟩

/-- A further change of one attempt that keeps its identity. -/
theorem update (h : Moves R reg reg')
    (hf : ∀ r, (f r).attemptId = r.attemptId ∧ (f r).workloadId = r.workloadId)
    (hR : ∀ r r', reg.getAttempt id = some r → R r r' → R r (f r')) :
    Moves R reg (reg'.update id f) where
  byWorkload := h.byWorkload
  keys := by
    rw [← h.keys]
    unfold AttemptRegistry.update Dict.modify
    cases hr : reg'.attempts.get? id with
    | none => rfl
    | some r => exact Dict.keys_set_of_some _ hr
  record id' r hr := by
    obtain ⟨r', hr', hRr, hi, hw⟩ := h.record id' r hr
    rw [getAttempt_update]
    split_ifs with he
    · subst he
      refine ⟨f r', by rw [hr', Option.map_some], hR r r' hr hRr, ?_⟩
      exact ⟨(hf r').1.trans hi, (hf r').2.trans hw⟩
    · exact ⟨r', hr', hRr, hi, hw⟩

theorem foldl_update (h : Moves R reg reg') (ids : List String)
    (hf : ∀ r, (f r).attemptId = r.attemptId ∧ (f r).workloadId = r.workloadId)
    (hR : ∀ id ∈ ids, ∀ r r', reg.getAttempt id = some r → R r r' → R r (f r')) :
    Moves R reg (ids.foldl (fun reg id => reg.update id f) reg') := by
  induction ids generalizing reg' with
  | nil => exact h
  | cons id ids ih =>
    refine ih (h.update hf (hR id List.mem_cons_self)) fun id' hid => ?_
    exact hR id' (List.mem_cons_of_mem id hid)

theorem idsOf (h : Moves R reg reg') (w : String) : reg'.idsOf w = reg.idsOf w := by
  rw [AttemptRegistry.idsOf, AttemptRegistry.idsOf, h.byWorkload]

theorem of_getAttempt (h : Moves R reg reg') {r' : AttemptRecord}
    (hr' : reg'.getAttempt id = some r') : ∃ r, reg.getAttempt id = some r ∧ R r r' ∧
      r'.attemptId = r.attemptId ∧ r'.workloadId = r.workloadId := by
  have hmem : id ∈ reg.attempts.keys := h.keys ▸ Dict.mem_keys.2 ⟨r', hr'⟩
  obtain ⟨r, hr⟩ := Dict.mem_keys.1 hmem
  obtain ⟨r₁, hr₁, hR⟩ := h.record id r hr
  obtain rfl := Option.some.inj (hr'.symm.trans hr₁)
  exact ⟨r, hr, hR⟩

theorem ledger (h : Moves R reg reg') (hl : Ledger reg) : Ledger reg' where
  numbered w := by
    rw [h.idsOf]
    exact hl.numbered w
  filed id r' hr' := by
    obtain ⟨r, hr, -, hi, hw⟩ := h.of_getAttempt hr'
    rw [hi, hw, h.idsOf]
    exact hl.filed id r hr
  present w id hid := by
    rw [h.idsOf] at hid
    obtain ⟨r, hr, hw⟩ := hl.present w id hid
    obtain ⟨r', hr', -, -, hw'⟩ := h.record id r hr
    exact ⟨r', hr', hw'.trans hw⟩

theorem ledger_update (hl : Ledger reg) (id : String)
    (hf : ∀ r, (f r).attemptId = r.attemptId ∧ (f r).workloadId = r.workloadId) :
    Ledger (reg.update id f) := by
  have hrefl : Moves (fun _ _ => True) reg reg := .refl (fun _ => trivial) reg
  exact (hrefl.update hf fun _ _ _ _ => trivial).ledger hl

theorem attemptsUsed_le (h : Moves R reg reg')
    (hR : ∀ id r r', reg.getAttempt id = some r → R r r' → r'.counted = true → r.counted = true)
    (w : String) : reg'.attemptsUsed w ≤ reg.attemptsUsed w := by
  rw [attemptsUsed_eq, attemptsUsed_eq, h.idsOf]
  refine List.countP_mono_left fun id _ hc => ?_
  cases hr' : reg'.getAttempt id with
  | none => simp [hr'] at hc
  | some r' =>
    rw [hr'] at hc
    obtain ⟨r, hr, hRr, -⟩ := h.of_getAttempt hr'
    rw [hr]
    exact hR id r r' hr hRr hc

theorem attemptsUsed_eq (h : Moves R reg reg') (hl : Ledger reg)
    (hR : ∀ id r r', reg.getAttempt id = some r → r.workloadId = w → R r r' →
      r'.counted = r.counted) : reg'.attemptsUsed w = reg.attemptsUsed w := by
  rw [AttemptRegistry.attemptsUsed_eq, AttemptRegistry.attemptsUsed_eq, h.idsOf]
  refine List.countP_congr fun id hid => ?_
  obtain ⟨r, hr, hw⟩ := hl.present w id hid
  obtain ⟨r', hr', hRr, -⟩ := h.record id r hr
  rw [hr, hr', Option.any_some, Option.any_some, hR id r r' hr hw hRr]

/-- A move after which an attempt occupies a worker only if it did before. -/
theorem activeCount_le {x : String} (h : Moves R reg reg')
    (hR : ∀ r r', R r r' → r'.occupies x = true → r.occupies x = true) :
    reg'.activeCount x ≤ reg.activeCount x := by
  rw [activeCount_eq, activeCount_eq, h.keys]
  refine List.countP_mono_left fun id _ hc => ?_
  cases hr' : reg'.getAttempt id with
  | none => simp [hr'] at hc
  | some r' =>
    rw [hr'] at hc
    obtain ⟨r, hr, hRr, -⟩ := h.of_getAttempt hr'
    rw [hr]
    exact hR r r' hRr hc

end Moves

end AttemptRegistry

end Aidars
