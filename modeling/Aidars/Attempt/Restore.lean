import Aidars.Attempt.Ledger
import Aidars.Foundations.Run
import Mathlib.Data.Finset.Card
import Mathlib.Data.List.Sort
import Mathlib.Order.Interval.Finset.Nat

/-!
# Attempts read back from the store

A restart inserts the attempts that could be read back one by one (`restoreAttempt`), each at its
place by number. Rows that are malformed are skipped, so any of the attempts of a workload may be
missing. The number of the next attempt is one more than how many there are.

`attempt_ids_fresh_iff` states that numbers and identifiers are never used again exactly when no
number below one that was restored is missing.
-/

namespace Aidars

/-- The identifier of the record is made of its workload and its number, which is positive. -/
structure AttemptRecord.Identified (r : AttemptRecord) : Prop where
  id : r.attemptId = makeAttemptId r.workloadId r.attemptNumber
  pos : 0 < r.attemptNumber

namespace AttemptRegistry

/-- The number of an attempt. -/
def numberOf (attempts : Dict String AttemptRecord) (id : String) : ℕ :=
  ((attempts.get? id).map (·.attemptNumber)).getD 0

/-- Insert a record that was loaded from the store, in the order of the numbers. -/
def restoreAttempt (reg : AttemptRegistry) (record : AttemptRecord) : AttemptRegistry :=
  let attempts := reg.attempts.set record.attemptId record
  let ids := reg.idsOf record.workloadId
  { attempts
    byWorkload := if record.attemptId ∈ ids then reg.byWorkload
      else reg.byWorkload.set record.workloadId
        ((ids ++ [record.attemptId]).insertionSort fun a b =>
          numberOf attempts a ≤ numberOf attempts b) }

/-- Insert all records that were loaded. -/
def restoreAll (records : List AttemptRecord) : AttemptRegistry := records.foldl restoreAttempt {}

/-- A call of `create_attempt`. -/
structure CreateCall where
  workloadId : String
  placementDecision : Option PlacementDecision := none
  executionGroup : Option ExecutionGroup := none

/-- The registry after a call. -/
def createStep (reg : AttemptRegistry) (c : CreateCall) : Option AttemptRegistry :=
  some (reg.createAttempt c.workloadId c.placementDecision c.executionGroup)

/-- The next attempt has a greater number than all attempts of the workload, and an identifier that
is not in use. -/
structure Fresh (reg : AttemptRegistry) (c : CreateCall) : Prop where
  number : ∀ id r, reg.getAttempt id = some r → r.workloadId = c.workloadId →
    r.attemptNumber <
      (reg.newAttempt c.workloadId c.placementDecision c.executionGroup).attemptNumber
  id : reg.getAttempt
    (reg.newAttempt c.workloadId c.placementDecision c.executionGroup).attemptId = none

/-! ## The registry as a set of numbers -/

variable {reg : AttemptRegistry} {records : List AttemptRecord} {record r : AttemptRecord}
  {w w' id : String} {n : ℕ} {d : Option PlacementDecision} {g : Option ExecutionGroup}

/-- The attempts of a workload are listed once, and each is filed under its identifier. -/
structure Filed (reg : AttemptRegistry) : Prop where
  nodup : ∀ w, (reg.idsOf w).Nodup
  mem_iff : ∀ w id, id ∈ reg.idsOf w ↔ ∃ r, reg.getAttempt id = some r ∧ r.workloadId = w
  identified : ∀ id r, reg.getAttempt id = some r → r.attemptId = id ∧ r.Identified

theorem filed_empty : Filed {} where
  nodup w := List.nodup_nil
  mem_iff w id := by simp [idsOf, getAttempt]
  identified id r h := by simp [getAttempt] at h

/-- An attempt by its workload and number. -/
theorem Filed.getAttempt_makeAttemptId (h : Filed reg)
    (hr : reg.getAttempt (makeAttemptId w n) = some r) :
    r.workloadId = w ∧ r.attemptNumber = n := by
  obtain ⟨hid, hr⟩ := h.identified _ r hr
  rw [hr.id] at hid
  exact makeAttemptId_inj hid

theorem getAttempt_restoreAttempt : (reg.restoreAttempt record).getAttempt id =
    if id = record.attemptId then some record else reg.getAttempt id := by
  rw [getAttempt, restoreAttempt, Dict.get?_set]
  rfl

theorem perm_idsOf_restoreAttempt : ((reg.restoreAttempt record).idsOf w).Perm
    (if w = record.workloadId ∧ record.attemptId ∉ reg.idsOf w then
      reg.idsOf w ++ [record.attemptId] else reg.idsOf w) := by
  unfold restoreAttempt idsOf
  dsimp only
  by_cases hmem : record.attemptId ∈ (reg.byWorkload.get? record.workloadId).getD []
  · rw [if_pos hmem, if_neg]
    rintro ⟨rfl, hnot⟩
    exact hnot hmem
  · rw [if_neg hmem, Dict.get?_set]
    by_cases hw : w = record.workloadId
    · rw [if_pos hw, hw, if_pos ⟨rfl, hmem⟩]
      exact List.perm_insertionSort _ _
    · rw [if_neg hw, if_neg fun hc => hw hc.1]

theorem mem_idsOf_restoreAttempt : id ∈ (reg.restoreAttempt record).idsOf w ↔
    id ∈ reg.idsOf w ∨ (w = record.workloadId ∧ id = record.attemptId) := by
  rw [perm_idsOf_restoreAttempt.mem_iff]
  by_cases hw : w = record.workloadId
  · subst hw
    by_cases hmem : record.attemptId ∈ reg.idsOf record.workloadId
    · rw [if_neg fun h => h.2 hmem]
      exact ⟨.inl, fun h => h.elim (fun h => h) fun h => h.2 ▸ hmem⟩
    · rw [if_pos ⟨rfl, hmem⟩]
      simp
  · simp [hw]

/-- **Restoring keeps the registry filed.** -/
theorem Filed.restoreAttempt (h : Filed reg) (hr : record.Identified) :
    Filed (reg.restoreAttempt record) where
  nodup w := by
    rw [perm_idsOf_restoreAttempt.nodup_iff]
    split_ifs with hnew
    · exact List.nodup_append'.2 ⟨h.nodup w, List.nodup_singleton _,
        List.disjoint_singleton.2 hnew.2⟩
    · exact h.nodup w
  mem_iff w id := by
    rw [mem_idsOf_restoreAttempt, getAttempt_restoreAttempt, h.mem_iff]
    by_cases hid : id = record.attemptId
    · rw [if_pos hid]
      constructor
      · rintro (⟨r, hold, hw⟩ | ⟨hw, -⟩)
        · -- a record with this identifier belongs to the same workload
          obtain ⟨hrid, hident⟩ := h.identified id r hold
          rw [hid, hr.id, hident.id] at hrid
          exact ⟨record, rfl, (makeAttemptId_inj hrid).1.symm.trans hw⟩
        · exact ⟨record, rfl, hw.symm⟩
      · rintro ⟨r, hr, hw⟩
        obtain rfl := Option.some.inj hr
        exact .inr ⟨hw.symm, hid⟩
    · rw [if_neg hid]
      simp [hid]
  identified id r hget := by
    rw [getAttempt_restoreAttempt] at hget
    split_ifs at hget with hid
    · obtain rfl := Option.some.inj hget
      exact ⟨hid.symm, hr⟩
    · exact h.identified id r hget

theorem filed_restoreAll (hr : ∀ r ∈ records, r.Identified) : Filed (restoreAll records) := by
  unfold restoreAll
  induction records using List.reverseRecOn with
  | nil => exact filed_empty
  | append_singleton records record ih =>
    rw [List.foldl_append]
    refine (ih fun r hmem => hr r (List.mem_append_left _ hmem)).restoreAttempt ?_
    exact hr record (List.mem_append_right _ (List.mem_singleton_self _))

theorem getAttempt_restoreAll (id : String) : (∃ r, (restoreAll records).getAttempt id = some r) ↔
    ∃ r ∈ records, r.attemptId = id := by
  unfold restoreAll
  induction records using List.reverseRecOn with
  | nil => simp [getAttempt]
  | append_singleton records record ih =>
    rw [List.foldl_append, List.foldl_cons, List.foldl_nil, getAttempt_restoreAttempt]
    split_ifs with hid
    · exact iff_of_true ⟨record, rfl⟩ ⟨record, by simp, hid.symm⟩
    · rw [ih]
      simp [Ne.symm hid]

theorem numberOf_eq (h : reg.getAttempt id = some r) :
    numberOf reg.attempts id = r.attemptNumber := by
  rw [numberOf, ← getAttempt, h]
  rfl

/-- The numbers of the attempts of a workload. -/
def numbers (reg : AttemptRegistry) (w : String) : Finset ℕ :=
  ((reg.idsOf w).map (numberOf reg.attempts)).toFinset

theorem Filed.mem_numbers (h : Filed reg) :
    n ∈ reg.numbers w ↔ ∃ r, reg.getAttempt (makeAttemptId w n) = some r := by
  simp only [numbers, List.mem_toFinset, List.mem_map]
  constructor
  · rintro ⟨id, hid, rfl⟩
    obtain ⟨r, hr, rfl⟩ := (h.mem_iff w id).1 hid
    obtain ⟨hrid, hident⟩ := h.identified id r hr
    rw [numberOf_eq hr, ← hident.id, hrid]
    exact ⟨r, hr⟩
  · rintro ⟨r, hr⟩
    obtain ⟨hw, hn⟩ := h.getAttempt_makeAttemptId hr
    exact ⟨makeAttemptId w n, (h.mem_iff w _).2 ⟨r, hr, hw⟩, (numberOf_eq hr).trans hn⟩

theorem Filed.pos_of_mem_numbers (h : Filed reg) (hn : n ∈ reg.numbers w) : 0 < n := by
  obtain ⟨r, hr⟩ := h.mem_numbers.1 hn
  obtain ⟨-, hident⟩ := h.identified _ r hr
  exact (h.getAttempt_makeAttemptId hr).2 ▸ hident.pos

/-- **There are as many numbers as attempts.** -/
theorem Filed.card_numbers (h : Filed reg) (w : String) :
    (reg.numbers w).card = (reg.idsOf w).length := by
  rw [numbers, List.toFinset_card_of_nodup, List.length_map]
  refine List.Nodup.map_on ?_ (h.nodup w)
  intro a ha b hb hab
  obtain ⟨ra, hra, hwa⟩ := (h.mem_iff w a).1 ha
  obtain ⟨rb, hrb, hwb⟩ := (h.mem_iff w b).1 hb
  obtain ⟨hida, hidenta⟩ := h.identified a ra hra
  obtain ⟨hidb, hidentb⟩ := h.identified b rb hrb
  rw [numberOf_eq hra, numberOf_eq hrb] at hab
  rw [← hida, ← hidb, hidenta.id, hidentb.id, hwa, hwb, hab]

/-- Inserting two records with one identity lists the same attempts in the same order. -/
theorem idsOf_restoreAttempt_congr {reg' : AttemptRegistry} {record' : AttemptRecord}
    (hids : ∀ w, reg.idsOf w = reg'.idsOf w)
    (hnumbers : ∀ id, numberOf reg.attempts id = numberOf reg'.attempts id)
    (hid : record.attemptId = record'.attemptId) (hw : record.workloadId = record'.workloadId)
    (hn : record.attemptNumber = record'.attemptNumber) :
    (∀ w, (reg.restoreAttempt record).idsOf w = (reg'.restoreAttempt record').idsOf w) ∧
      ∀ id, numberOf (reg.restoreAttempt record).attempts id =
        numberOf (reg'.restoreAttempt record').attempts id := by
  have hnumbers' : ∀ id, numberOf (reg.attempts.set record.attemptId record) id =
      numberOf (reg'.attempts.set record'.attemptId record') id := by
    intro id
    have hold := hnumbers id
    unfold numberOf at hold ⊢
    rw [Dict.get?_set, Dict.get?_set, hid]
    split_ifs
    · exact hn
    · exact hold
  refine ⟨fun w => ?_, hnumbers'⟩
  have hmem : record.attemptId ∈ reg.idsOf record.workloadId ↔
      record'.attemptId ∈ reg'.idsOf record'.workloadId := by rw [hid, hw, hids]
  have hlist := hids w
  unfold restoreAttempt
  dsimp only
  by_cases h : record.attemptId ∈ reg.idsOf record.workloadId
  · rw [if_pos h, if_pos (hmem.1 h)]
    exact hlist
  · rw [if_neg h, if_neg fun h' => h (hmem.2 h')]
    unfold idsOf
    dsimp only
    rw [Dict.get?_set, Dict.get?_set, hw]
    split_ifs
    · have horder : (fun a b => numberOf (reg.attempts.set record.attemptId record) a ≤
          numberOf (reg.attempts.set record.attemptId record) b) =
          fun a b => numberOf (reg'.attempts.set record'.attemptId record') a ≤
            numberOf (reg'.attempts.set record'.attemptId record') b := by
        funext a b
        rw [hnumbers', hnumbers']
      have hlisted : (reg.byWorkload.get? record'.workloadId).getD [] =
          (reg'.byWorkload.get? record'.workloadId).getD [] := hids record'.workloadId
      rw [Option.getD_some, Option.getD_some, hlisted]
      congr 1
      rw [hid]
    · exact hlist

/-- **The order in which attempts are listed depends on their identifiers alone.** -/
theorem idsOf_restoreAll_congr {records' : List AttemptRecord} (hr : ∀ r ∈ records, r.Identified)
    (hr' : ∀ r ∈ records', r.Identified)
    (h : records.map (·.attemptId) = records'.map (·.attemptId)) (w : String) :
    (restoreAll records).idsOf w = (restoreAll records').idsOf w := by
  have key : ∀ (l l' : List AttemptRecord) (reg reg' : AttemptRegistry),
      (∀ r ∈ l, r.Identified) → (∀ r ∈ l', r.Identified) →
      l.map (·.attemptId) = l'.map (·.attemptId) → (∀ w, reg.idsOf w = reg'.idsOf w) →
      (∀ id, numberOf reg.attempts id = numberOf reg'.attempts id) →
      (l.foldl restoreAttempt reg).idsOf w = (l'.foldl restoreAttempt reg').idsOf w := by
    intro l
    induction l with
    | nil =>
      intro l' reg reg' _ _ hl hids _
      obtain rfl := List.map_eq_nil_iff.1 hl.symm
      exact hids w
    | cons r l ih =>
      intro l' reg reg' hrl hrl' hl hids hnumbers
      cases l' with
      | nil => cases hl
      | cons r' l' =>
        obtain ⟨hfirst, hrest⟩ := List.cons.inj hl
        obtain ⟨hident, hrl⟩ := List.forall_mem_cons.1 hrl
        obtain ⟨hident', hrl'⟩ := List.forall_mem_cons.1 hrl'
        -- the identifier tells the workload and the number
        have hpair := makeAttemptId_inj (hident.id.symm.trans (hfirst.trans hident'.id))
        obtain ⟨hids', hnumbers'⟩ :=
          idsOf_restoreAttempt_congr hids hnumbers hfirst hpair.1 hpair.2
        exact ih l' _ _ hrl hrl' hrest hids' hnumbers'
  exact key records records' {} {} hr hr' h (fun _ => rfl) fun _ => rfl

/-! ## The next number -/

/-- A set of positive numbers has none above its size exactly when it has no gap. -/
theorem forall_le_card_iff {t : Finset ℕ} (hpos : ∀ n ∈ t, 0 < n) :
    (∀ n ∈ t, n ≤ t.card) ↔ ∀ n ∈ t, ∀ m, 0 < m → m < n → m ∈ t := by
  constructor
  · intro hle n hn m hm hmn
    have hsub : t ⊆ Finset.Icc 1 t.card :=
      fun k hk => Finset.mem_Icc.2 ⟨hpos k hk, hle k hk⟩
    have heq : t = Finset.Icc 1 t.card := by
      refine Finset.eq_of_subset_of_card_le hsub ?_
      rw [Nat.card_Icc]
      omega
    rw [heq, Finset.mem_Icc]
    have := hle n hn
    omega
  · intro hgap n hn
    have hsub : Finset.Icc 1 n ⊆ t := by
      intro m hm
      obtain ⟨h₁, h₂⟩ := Finset.mem_Icc.1 hm
      rcases h₂.lt_or_eq with hlt | rfl
      · exact hgap n hn m h₁ hlt
      · exact hn
    have hcard := Finset.card_le_card hsub
    rw [Nat.card_Icc] at hcard
    omega

/-- No number below that of an attempt is missing. -/
def Contiguous (reg : AttemptRegistry) (w : String) : Prop :=
  ∀ n ∈ reg.numbers w, ∀ m, 0 < m → m < n → m ∈ reg.numbers w

/-- **The next attempt is fresh exactly when no number is missing.** -/
theorem Filed.fresh_iff (h : Filed reg) (c : CreateCall) :
    reg.Fresh c ↔ reg.Contiguous c.workloadId := by
  have hcard := h.card_numbers c.workloadId
  rw [Contiguous, ← forall_le_card_iff fun n hn => h.pos_of_mem_numbers hn]
  constructor
  · intro hfresh n hn
    obtain ⟨r, hr⟩ := h.mem_numbers.1 hn
    obtain ⟨hw, rfl⟩ := h.getAttempt_makeAttemptId hr
    have hlt : r.attemptNumber < (reg.idsOf c.workloadId).length + 1 := hfresh.number _ r hr hw
    omega
  · intro hle
    have hlt : ∀ n, (∃ r, reg.getAttempt (makeAttemptId c.workloadId n) = some r) →
        n < (reg.idsOf c.workloadId).length + 1 := by
      intro n hn
      have := hle n (h.mem_numbers.2 hn)
      omega
    refine ⟨fun id r hr hw => hlt _ ⟨r, ?_⟩, ?_⟩
    · obtain ⟨hid, hident⟩ := h.identified id r hr
      rwa [← hw, ← hident.id, hid]
    · by_contra hne
      obtain ⟨r, hr⟩ := Option.ne_none_iff_exists'.1 hne
      exact lt_irrefl _ (hlt _ ⟨r, hr⟩)

theorem Filed.contiguous_iff (h : Filed reg) (w : String) :
    reg.Contiguous w ↔ ∀ n ∈ reg.numbers w, n ≤ (reg.idsOf w).length := by
  rw [← h.card_numbers, Contiguous, forall_le_card_iff fun n hn => h.pos_of_mem_numbers hn]

theorem Filed.createAttempt (h : Filed reg) (w : String) (d : Option PlacementDecision)
    (g : Option ExecutionGroup) (hfree : reg.getAttempt (reg.nextId w) = none) :
    Filed (reg.createAttempt w d g) := by
  have hnot : ∀ w', reg.nextId w ∉ reg.idsOf w' := by
    intro w' hmem
    obtain ⟨r, hr, -⟩ := (h.mem_iff w' _).1 hmem
    rw [hfree] at hr
    cases hr
  refine ⟨fun w' => ?_, fun w' id => ?_, fun id r hr => ?_⟩
  · rw [idsOf_createAttempt]
    split_ifs with hw
    · exact List.nodup_append'.2 ⟨h.nodup w, List.nodup_singleton _,
        List.disjoint_singleton.2 (hnot w)⟩
    · exact h.nodup w'
  · rw [idsOf_createAttempt, getAttempt_createAttempt]
    by_cases hid : id = reg.nextId w
    · rw [if_pos hid]
      split_ifs with hw
      · exact iff_of_true (by simp [hid]) ⟨_, rfl, hw.symm⟩
      · refine iff_of_false (hid ▸ hnot w') ?_
        rintro ⟨r, hr, hw'⟩
        obtain rfl := Option.some.inj hr
        exact hw hw'.symm
    · rw [if_neg hid, ← h.mem_iff]
      split_ifs with hw
      · simp [hid, hw]
      · rfl
  · rw [getAttempt_createAttempt] at hr
    split_ifs at hr with hid
    · obtain rfl := Option.some.inj hr
      exact ⟨hid.symm, rfl, Nat.succ_pos _⟩
    · exact h.identified id r hr

/-- **A fresh attempt leaves no gap.** -/
theorem Filed.contiguous_createAttempt (h : Filed reg) (hall : ∀ w, reg.Contiguous w) (w : String)
    (d : Option PlacementDecision) (g : Option ExecutionGroup)
    (hfree : reg.getAttempt (reg.nextId w) = none) (w' : String) :
    (reg.createAttempt w d g).Contiguous w' := by
  have h' := h.createAttempt w d g hfree
  rw [h'.contiguous_iff]
  intro n hn
  have hold := (h.contiguous_iff w').1 (hall w') n
  rw [h'.mem_numbers, getAttempt_createAttempt] at hn
  rw [idsOf_createAttempt]
  split_ifs at hn with hid
  · obtain ⟨rfl, rfl⟩ := makeAttemptId_inj hid
    rw [if_pos rfl, List.length_append, List.length_singleton]
  · have hle := hold (h.mem_numbers.2 hn)
    split_ifs with hw
    · subst hw
      rw [List.length_append, List.length_singleton]
      omega
    · exact hle

/-! ## Restoring and creating -/

/-- No restored number has a missing one below it. -/
def NoGap (records : List AttemptRecord) : Prop :=
  ∀ r ∈ records, ∀ m, 0 < m → m < r.attemptNumber →
    ∃ r' ∈ records, r'.workloadId = r.workloadId ∧ r'.attemptNumber = m

theorem mem_numbers_restoreAll (hr : ∀ r ∈ records, r.Identified) :
    n ∈ (restoreAll records).numbers w ↔ ∃ r ∈ records, r.workloadId = w ∧ r.attemptNumber = n := by
  rw [(filed_restoreAll hr).mem_numbers, getAttempt_restoreAll]
  refine exists_congr fun r => and_congr_right fun hmem => ?_
  rw [(hr r hmem).id]
  constructor
  · exact makeAttemptId_inj
  · rintro ⟨rfl, rfl⟩
    rfl

theorem contiguous_restoreAll_iff (hr : ∀ r ∈ records, r.Identified) :
    (∀ w, (restoreAll records).Contiguous w) ↔ NoGap records := by
  unfold Contiguous NoGap
  simp only [mem_numbers_restoreAll hr]
  constructor
  · intro h r hmem m hm hlt
    exact h r.workloadId r.attemptNumber ⟨r, hmem, rfl, rfl⟩ m hm hlt
  · rintro h w n ⟨r, hmem, rfl, rfl⟩ m hm hlt
    exact h r hmem m hm hlt

/-- Whatever is created after a restart is fresh. -/
def NeverReused (records : List AttemptRecord) : Prop :=
  ∀ calls, Along createStep Fresh (restoreAll records) calls

/-- **Attempt numbers and identifiers are not used again exactly when** no number below a restored
one is missing. -/
theorem attempt_ids_fresh_iff (records : List AttemptRecord)
    (hrecords : ∀ r ∈ records, r.Identified) : NeverReused records ↔ NoGap records := by
  have hfiled := filed_restoreAll hrecords
  rw [← contiguous_restoreAll_iff hrecords]
  constructor
  · intro h w
    exact (hfiled.fresh_iff { workloadId := w }).1 (h [{ workloadId := w }]).1
  · intro h calls
    have hrun : ∀ reg, Filed reg → (∀ w, reg.Contiguous w) → Along createStep Fresh reg calls := by
      induction calls with
      | nil => exact fun _ _ _ => trivial
      | cons c calls ih =>
        intro reg hreg hall
        have hfresh := (hreg.fresh_iff c).2 (hall c.workloadId)
        refine ⟨hfresh, _, rfl, ih _ ?_ ?_⟩
        · exact hreg.createAttempt _ _ _ hfresh.id
        · exact hreg.contiguous_createAttempt hall _ _ _ hfresh.id
    exact hrun _ hfiled h

/-- The record of an attempt. -/
def sampleAttempt (w : String) (n : ℕ) : AttemptRecord where
  attemptId := makeAttemptId w n
  workloadId := w
  attemptNumber := n
  status := .failed

theorem identified_sampleAttempt (w : String) (n : ℕ) : (sampleAttempt w (n + 1)).Identified :=
  ⟨rfl, Nat.succ_pos n⟩

/-- Two attempts are read back. -/
theorem attempt_ids_fresh_two : NeverReused [sampleAttempt "w" 1, sampleAttempt "w" 2] := by
  refine (attempt_ids_fresh_iff _ ?_).2 ?_
  · intro r hr
    rcases List.mem_pair.1 hr with rfl | rfl <;> exact identified_sampleAttempt _ _
  · intro r hr m hm hlt
    rcases List.mem_pair.1 hr with rfl | rfl
    · exact absurd hlt (by simp only [sampleAttempt]; omega)
    · obtain rfl : m = 1 := by simp only [sampleAttempt] at hlt; omega
      exact ⟨_, List.mem_cons_self, rfl, rfl⟩

/-- The second of three attempts is not read back. The next attempt is given the identifier of the
third. -/
theorem third_attempt_replaced :
    ¬ ∀ records : List AttemptRecord, (∀ r ∈ records, r.Identified) → NeverReused records := by
  intro hclaim
  have hrecords : ∀ r ∈ [sampleAttempt "w" 1, sampleAttempt "w" 3], r.Identified := by
    intro r hr
    rcases List.mem_pair.1 hr with rfl | rfl <;> exact identified_sampleAttempt _ _
  have hfresh := (hclaim _ hrecords [{ workloadId := "w" }]).1
  have hused : (restoreAll [sampleAttempt "w" 1, sampleAttempt "w" 3]).getAttempt
      ((restoreAll [sampleAttempt "w" 1, sampleAttempt "w" 3]).nextId "w") ≠ none := by
    decide +kernel
  exact hused hfresh.id

end AttemptRegistry

end Aidars
