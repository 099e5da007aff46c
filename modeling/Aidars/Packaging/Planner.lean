import Aidars.Packaging.Resolver

/-!
# Planning packages

The plan of a package holds every record and the records to copy: the first resolved record with
each content. A duplicate gets the path of the first record with its content.

`Records.allAssets_createPlan` and `Records.mem_deduplicatedAssets` say so for the records of a
resolver.
-/

namespace Aidars.Packaging

/-- What the builder reads of a plan. -/
structure PackagePlan where
  packageId : String
  sceneName : String
  camera : String := ""
  frameStart : ℤ := 1
  frameEnd : ℤ := 24
  allAssets : List AssetRecord := []
  deduplicatedAssets : List AssetRecord := []
  missingAssets : List AssetRecord := []
  deriving DecidableEq

/-- The key of the order of records. -/
def byId (r : AssetRecord) : Tuple := [.str r.assetId]

/-- The loop over the records: all of them, with the paths of duplicates changed, and those to
copy. -/
def dedupe (seenHashes : Dict String AssetRecord) :
    List AssetRecord → List AssetRecord × List AssetRecord
  | [] => ([], [])
  | record :: rest =>
    if record.status ≠ .resolved then (dedupe seenHashes rest).map (record :: ·) id
    else match record.sha256 with
      | none => (dedupe seenHashes rest).map (record :: ·) (record :: ·)
      | some h =>
        match seenHashes.get? h with
        | none => (dedupe (seenHashes.set h record) rest).map (record :: ·) (record :: ·)
        | some canonical =>
          (dedupe seenHashes rest).map
            ({ record with packagePath := canonical.packagePath } :: ·) id

/-- The plan for a list of records. -/
def createPlan (assetRecords : List AssetRecord) (packageId sceneName camera : String)
    (frameStart frameEnd : ℤ) : PackagePlan :=
  let sortedRecords := sortBy byId assetRecords
  let (allAssets, deduplicatedAssets) := dedupe ∅ sortedRecords
  { packageId, sceneName, camera, frameStart, frameEnd, allAssets
    deduplicatedAssets := sortBy byId deduplicatedAssets
    missingAssets := sortBy byId (sortedRecords.filter fun r => r.status = .missing) }

/-! ## Canonical records -/

/-- The record of a resolved asset with a hash. -/
def HasHash (h : String) (r : AssetRecord) : Prop := r.status = .resolved ∧ r.sha256 = some h

instance (h : String) : DecidablePred (HasHash h) := fun _ => inferInstanceAs (Decidable (_ ∧ _))

/-- The first resolved record with a hash. -/
def canonical (l : List AssetRecord) (h : String) : Option AssetRecord :=
  l.find? fun r => HasHash h r

/-- The first record with a hash: one that was seen, or else the first of the list. -/
def firstSeen (seen : Dict String AssetRecord) (l : List AssetRecord) (h : String) :
    Option AssetRecord :=
  (seen.get? h).or (canonical l h)

/-- A record with the path of the first record with its hash. -/
def placed (first : String → Option AssetRecord) (r : AssetRecord) : AssetRecord :=
  if r.status ≠ .resolved then r
  else match r.sha256.bind first with
    | none => r
    | some c => { r with packagePath := c.packagePath }

variable {seen : Dict String AssetRecord} {r : AssetRecord} {l : List AssetRecord} {h h' : String}

theorem canonical_cons_of_not (hr : ¬ HasHash h r) : canonical (r :: l) h = canonical l h := by
  simp [canonical, hr]

theorem canonical_cons_of (hr : HasHash h r) : canonical (r :: l) h = some r := by
  simp [canonical, hr]

theorem hasHash_of_canonical {c : AssetRecord} (hc : canonical l h = some c) :
    c ∈ l ∧ HasHash h c :=
  ⟨List.mem_of_find?_eq_some hc, by simpa using List.find?_some hc⟩

theorem exists_canonical (hr : HasHash h r) (hmem : r ∈ l) : ∃ c, canonical l h = some c :=
  Option.isSome_iff_exists.1 (List.find?_isSome.2 ⟨r, hmem, by simpa using hr⟩)

theorem firstSeen_cons_of_not (hr : ¬ HasHash h r) :
    firstSeen seen (r :: l) h = firstSeen seen l h := by
  rw [firstSeen, firstSeen, canonical_cons_of_not hr]

/-- A hash that was seen is not looked for in the list. -/
theorem firstSeen_cons_of_seen {c : AssetRecord} (hr : HasHash h r) (hseen : seen.get? h = some c) :
    firstSeen seen (r :: l) = firstSeen seen l := by
  funext h'
  by_cases heq : h' = h
  · subst heq
    simp [firstSeen, hseen]
  · refine firstSeen_cons_of_not fun hr' => heq ?_
    exact Option.some.inj (hr'.2.symm.trans hr.2)

theorem firstSeen_cons_of_new (hr : HasHash h r) (hseen : seen.get? h = none) :
    firstSeen seen (r :: l) = firstSeen (seen.set h r) l := by
  funext h'
  by_cases heq : h = h'
  · subst heq
    simp [firstSeen, hseen, canonical_cons_of hr]
  · have hr' : ¬ HasHash h' r := fun hr' => heq (Option.some.inj (hr.2.symm.trans hr'.2))
    rw [firstSeen_cons_of_not hr', firstSeen, firstSeen, Dict.get?_set, if_neg (Ne.symm heq)]

theorem dedupe_cons_of_other (hr : r.status ≠ .resolved) :
    dedupe seen (r :: l) = (r :: (dedupe seen l).1, (dedupe seen l).2) := by
  rw [dedupe, if_pos hr]
  rfl

theorem dedupe_cons_of_no_hash (hr : r.status = .resolved) (hsha : r.sha256 = none) :
    dedupe seen (r :: l) = (r :: (dedupe seen l).1, r :: (dedupe seen l).2) := by
  rw [dedupe, if_neg (not_not.2 hr), hsha]
  rfl

theorem dedupe_cons_of_new (hr : HasHash h r) (hseen : seen.get? h = none) :
    dedupe seen (r :: l) =
      (r :: (dedupe (seen.set h r) l).1, r :: (dedupe (seen.set h r) l).2) := by
  simp only [dedupe, ne_eq, hr.1, not_true_eq_false, if_false, hr.2, hseen]
  rfl

theorem dedupe_cons_of_seen {c : AssetRecord} (hr : HasHash h r) (hseen : seen.get? h = some c) :
    dedupe seen (r :: l) =
      ({ r with packagePath := c.packagePath } :: (dedupe seen l).1, (dedupe seen l).2) := by
  simp only [dedupe, ne_eq, hr.1, not_true_eq_false, if_false, hr.2, hseen]
  rfl

theorem placed_of_hash {first : String → Option AssetRecord} {c : AssetRecord} (hr : HasHash h r)
    (hc : first h = some c) : placed first r = { r with packagePath := c.packagePath } := by
  simp [placed, hr.1, hr.2, hc]

theorem dedupe_fst (seen : Dict String AssetRecord) (l : List AssetRecord) :
    (dedupe seen l).1 = l.map (placed (firstSeen seen l)) := by
  induction l generalizing seen with
  | nil => rfl
  | cons r l ih =>
    have hother (hr : ∀ h, ¬ HasHash h r) : firstSeen seen (r :: l) = firstSeen seen l :=
      funext fun h => firstSeen_cons_of_not (hr h)
    by_cases hstatus : r.status = .resolved
    · cases hsha : r.sha256 with
      | none =>
        have hfirst := hother fun h hr => by simp [hr.2] at hsha
        rw [dedupe_cons_of_no_hash hstatus hsha, List.map_cons, hfirst, ih]
        simp [placed, hsha]
      | some h =>
        have hr : HasHash h r := ⟨hstatus, hsha⟩
        cases hseen : seen.get? h with
        | none =>
          have hfirst : firstSeen (seen.set h r) l h = some r := by simp [firstSeen]
          rw [dedupe_cons_of_new hr hseen, List.map_cons, firstSeen_cons_of_new hr hseen, ih,
            placed_of_hash hr hfirst]
        | some c =>
          have hfirst : firstSeen seen l h = some c := by simp [firstSeen, hseen]
          rw [dedupe_cons_of_seen hr hseen, List.map_cons, firstSeen_cons_of_seen hr hseen, ih,
            placed_of_hash hr hfirst]
    · have hfirst := hother fun h hr => hstatus hr.1
      rw [dedupe_cons_of_other hstatus, List.map_cons, hfirst, ih]
      simp [placed, hstatus]

theorem dedupe_snd_sublist (seen : Dict String AssetRecord) (l : List AssetRecord) :
    (dedupe seen l).2.Sublist l := by
  induction l generalizing seen with
  | nil => exact .slnil
  | cons r l ih =>
    by_cases hstatus : r.status = .resolved
    · cases hsha : r.sha256 with
      | none =>
        rw [dedupe_cons_of_no_hash hstatus hsha]
        exact (ih seen).cons_cons r
      | some h =>
        cases hseen : seen.get? h with
        | none =>
          rw [dedupe_cons_of_new ⟨hstatus, hsha⟩ hseen]
          exact (ih _).cons_cons r
        | some c =>
          rw [dedupe_cons_of_seen ⟨hstatus, hsha⟩ hseen]
          exact (ih seen).cons r
    · rw [dedupe_cons_of_other hstatus]
      exact (ih seen).cons r

theorem resolved_of_mem_dedupe_snd (hr : r ∈ (dedupe seen l).2) : r.status = .resolved := by
  induction l generalizing seen with
  | nil => cases hr
  | cons r₀ l ih =>
    by_cases hstatus : r₀.status = .resolved
    · cases hsha : r₀.sha256 with
      | none =>
        rw [dedupe_cons_of_no_hash hstatus hsha] at hr
        exact (List.mem_cons.1 hr).elim (fun heq => heq ▸ hstatus) ih
      | some h =>
        cases hseen : seen.get? h with
        | none =>
          rw [dedupe_cons_of_new ⟨hstatus, hsha⟩ hseen] at hr
          exact (List.mem_cons.1 hr).elim (fun heq => heq ▸ hstatus) ih
        | some c =>
          rw [dedupe_cons_of_seen ⟨hstatus, hsha⟩ hseen] at hr
          exact ih hr
    · rw [dedupe_cons_of_other hstatus] at hr
      exact ih hr

/-- The records with a hash to be copied are those that come first with it. -/
theorem mem_dedupe_snd (hr : HasHash h r) :
    r ∈ (dedupe seen l).2 ↔ seen.get? h = none ∧ canonical l h = some r := by
  induction l generalizing seen with
  | nil => simp [dedupe, canonical]
  | cons r₀ l ih =>
    have hcons (hne : r ≠ r₀) : r ∈ r₀ :: (dedupe seen l).2 ↔ r ∈ (dedupe seen l).2 := by
      simp [hne]
    by_cases hhash : HasHash h r₀
    · rw [canonical_cons_of hhash]
      cases hseen : seen.get? h with
      | none =>
        have hrest : r ∉ (dedupe (seen.set h r₀) l).2 := fun hmem => by
          have := (ih.1 hmem).1
          simp at this
        rw [dedupe_cons_of_new hhash hseen, List.mem_cons, or_iff_left hrest]
        simp [eq_comm]
      | some c =>
        rw [dedupe_cons_of_seen hhash hseen, ih, hseen]
        simp
    · rw [canonical_cons_of_not hhash]
      have hne : r ≠ r₀ := fun heq => hhash (heq ▸ hr)
      by_cases hstatus : r₀.status = .resolved
      · cases hsha : r₀.sha256 with
        | none => rw [dedupe_cons_of_no_hash hstatus hsha, hcons hne, ih]
        | some h₀ =>
          have hh : h ≠ h₀ := fun heq => hhash ⟨hstatus, heq ▸ hsha⟩
          cases hseen : seen.get? h₀ with
          | none =>
            rw [dedupe_cons_of_new ⟨hstatus, hsha⟩ hseen, List.mem_cons, or_iff_right hne,
              ih, Dict.get?_set, if_neg hh]
          | some c => rw [dedupe_cons_of_seen ⟨hstatus, hsha⟩ hseen, ih]
      · rw [dedupe_cons_of_other hstatus, ih]

/-! ## Plans for the records of a resolver -/

variable {t : FileTree PathName Bytes} {sha256 : Bytes → String} {records : List AssetRecord}
  {packageId sceneName camera : String} {frameStart frameEnd : ℤ}

namespace Records

theorem sortBy_eq (hrecords : Records t sha256 records) : sortBy byId records = records :=
  hrecords.sorted.insertionSort_eq

theorem nodup_records (hrecords : Records t sha256 records) : records.Nodup :=
  hrecords.nodup.of_map _

theorem allAssets_createPlan (hrecords : Records t sha256 records) :
    (createPlan records packageId sceneName camera frameStart frameEnd).allAssets =
      records.map (placed (canonical records)) := by
  simp only [createPlan, hrecords.sortBy_eq, dedupe_fst]
  rfl

theorem deduplicatedAssets_createPlan (hrecords : Records t sha256 records) :
    (createPlan records packageId sceneName camera frameStart frameEnd).deduplicatedAssets =
      sortBy byId (dedupe ∅ records).2 := by
  simp only [createPlan, hrecords.sortBy_eq]

/-- The records to copy are those that come first with their hashes. -/
theorem mem_deduplicatedAssets (hrecords : Records t sha256 records) (hr : HasHash h r) :
    r ∈ (createPlan records packageId sceneName camera frameStart frameEnd).deduplicatedAssets ↔
      canonical records h = some r := by
  rw [hrecords.deduplicatedAssets_createPlan, sortBy, List.mem_insertionSort,
    mem_dedupe_snd hr, and_iff_right (Dict.get?_empty h)]

theorem subset_deduplicatedAssets (hrecords : Records t sha256 records)
    (hr : r ∈ (createPlan records packageId sceneName camera frameStart
      frameEnd).deduplicatedAssets) : r ∈ records := by
  rw [hrecords.deduplicatedAssets_createPlan, sortBy, List.mem_insertionSort] at hr
  exact (dedupe_snd_sublist _ _).subset hr

theorem resolved_deduplicatedAssets (hrecords : Records t sha256 records)
    (hr : r ∈ (createPlan records packageId sceneName camera frameStart
      frameEnd).deduplicatedAssets) : r.status = .resolved := by
  rw [hrecords.deduplicatedAssets_createPlan, sortBy, List.mem_insertionSort] at hr
  exact resolved_of_mem_dedupe_snd hr

theorem nodup_deduplicatedAssets (hrecords : Records t sha256 records) :
    (createPlan records packageId sceneName camera frameStart
      frameEnd).deduplicatedAssets.Nodup := by
  rw [hrecords.deduplicatedAssets_createPlan]
  exact (List.perm_insertionSort _ _).nodup_iff.2
    (hrecords.nodup_records.sublist (dedupe_snd_sublist _ _))

end Records

end Aidars.Packaging
