import Aidars.Cache.Runs
import Aidars.Foundations.Ranking

/-!
# Candidates for eviction

The evictor goes through rows in the order of their use. It removes a row that may be evicted and
whose file it can delete (`evictable`), and passes over the others: it notes an access to a row
whose file is locked, and leaves a row alone that may not be evicted. `Evicts` says what stays the
same, and `run_evictCandidates` what a pass over a list of candidates does.
-/

namespace Aidars.Cache

open Prog

variable {cfg : CacheConfig} {locked : String → Bool} {d d' : CacheDisk} {h : String}
  {entry : CacheEntry} {rows : List (String × CacheEntry)}

/-! ## What can be evicted -/

/-- A row in the state may go to being evicted. -/
def mayEvict (state : CacheState) : Bool := .evicting ∈ validTransitions state || state = .evicting

/-- The file of a hash is not there or can be deleted. -/
def deletable (locked : String → Bool) (d : CacheDisk) (h : String) : Bool :=
  match validateHash h with
  | .ok _ => (d.objects.get? h).isNone || !locked h
  | .error _ => false

/-- A row may be evicted and its file can be deleted. -/
def evictable (locked : String → Bool) (d : CacheDisk) (h : String) (entry : CacheEntry) : Bool :=
  mayEvict entry.state && deletable locked d h

/-- The disk after a row was a candidate. -/
def evictRow (cfg : CacheConfig) (locked : String → Bool) (d : CacheDisk)
    (row : String × CacheEntry) : CacheDisk :=
  if mayEvict row.2.state then
    if deletable locked d row.1 then dropObject (dropRow d row.1) row.1 else touchRow cfg d row.1
  else d

/-- The sizes of the rows in a list that can be evicted. -/
def freeable (locked : String → Bool) (d : CacheDisk) (rows : List (String × CacheEntry)) : ℕ :=
  (rows.map fun row => if evictable locked d row.1 row.2 then row.2.sizeBytes else 0).sum

/-- The sizes of all rows that can be evicted. -/
def freeableTotal (locked : String → Bool) (d : CacheDisk) : ℕ :=
  freeable locked d d.entries.entries

/-- The rows, the one that was used least recently first. -/
def leastRecent (d : CacheDisk) : List (String × CacheEntry) :=
  sortOn (fun row => toLex (row.2.lastAccessedAt, row.1)) d.entries.entries

/-- The candidates are the first rows in the order of their use. -/
theorem getLruCandidates_eq (d : CacheDisk) (n : ℕ) :
    getLruCandidates d n = (leastRecent d).take n := by
  have hrel : (fun a b => usedBefore a b = true) = fun a b : String × CacheEntry =>
      toLex (a.2.lastAccessedAt, a.1) ≤ toLex (b.2.lastAccessedAt, b.1) := by
    ext a b
    simp only [usedBefore, Bool.or_eq_true, Bool.and_eq_true, decide_eq_true_eq,
      Prod.Lex.le_iff, ofLex_toLex]
  rw [getLruCandidates, leastRecent, sortOn]
  simp only [hrel]

theorem mem_leastRecent {row : String × CacheEntry} :
    row ∈ leastRecent d ↔ d.entries.get? row.1 = some row.2 := by
  rw [leastRecent, mem_sortOn]
  exact Dict.mem_entries

theorem nodup_leastRecent (d : CacheDisk) : ((leastRecent d).map Prod.fst).Nodup :=
  ((perm_sortOn _ _).map Prod.fst).nodup_iff.mpr d.entries.nodup

/-- Without its first row the order of use is the same. -/
theorem leastRecent_dropRow {row : String × CacheEntry} (hd : leastRecent d = row :: rows) :
    leastRecent (dropRow d row.1) = rows := by
  have hget : d.entries.get? row.1 = some row.2 := by
    apply mem_leastRecent.mp
    simp [hd]
  have hperm : (row :: (dropRow d row.1).entries.entries).Perm (row :: rows) := by
    rw [← hd]
    exact (Dict.perm_erase hget).symm.trans (perm_sortOn _ _).symm
  have hsorted := pairwise_sortOn (fun row : String × CacheEntry =>
    toLex (row.2.lastAccessedAt, row.1)) d.entries.entries
  change (leastRecent d).Pairwise _ at hsorted
  rw [hd] at hsorted
  have hnodup := nodup_leastRecent d
  rw [hd, List.map_cons, List.nodup_cons] at hnodup
  apply sortOn_eq_of_perm_of_pairwise ?_ hperm.cons_inv (List.pairwise_cons.mp hsorted).2
  intro a ha b hb hab
  refine List.inj_on_of_nodup_map hnodup.2 ha hb ?_
  simpa using congrArg (fun k => (ofLex k).2) hab

/-! ## The sizes of rows -/

theorem getTotalSize_eq (d : CacheDisk) :
    getTotalSize d = d.entries.total fun _ entry => entry.sizeBytes := by
  rw [getTotalSize, Dict.values, List.map_map]
  rfl

theorem freeableTotal_eq (locked : String → Bool) (d : CacheDisk) :
    freeableTotal locked d =
      d.entries.total fun h entry => if evictable locked d h entry then entry.sizeBytes else 0 :=
  rfl

theorem freeable_append (locked : String → Bool) (d : CacheDisk)
    (rows rows' : List (String × CacheEntry)) :
    freeable locked d (rows ++ rows') = freeable locked d rows + freeable locked d rows' := by
  simp [freeable]

theorem freeable_eq_zero (hrows : ∀ row ∈ rows, evictable locked d row.1 row.2 = false) :
    freeable locked d rows = 0 := by
  apply List.sum_eq_zero
  intro n hn
  obtain ⟨row, hrow, rfl⟩ := List.mem_map.mp hn
  simp [hrows row hrow]

theorem freeable_take_le (locked : String → Bool) (d : CacheDisk)
    (rows : List (String × CacheEntry)) (n : ℕ) :
    freeable locked d (rows.take n) ≤ freeable locked d rows := by
  conv_rhs => rw [← List.take_append_drop n rows, freeable_append]
  omega

/-! ## A candidate -/

theorem mayEvict_iff {state : CacheState} :
    mayEvict state = true ↔ .evicting ∈ validTransitions state ∨ state = .evicting := by
  simp [mayEvict]

theorem get?_evictRow_of_ne (cfg : CacheConfig) (locked : String → Bool)
    (d : CacheDisk) {row : String × CacheEntry} (hne : h ≠ row.1) :
    (evictRow cfg locked d row).entries.get? h = d.entries.get? h ∧
      (evictRow cfg locked d row).objects.get? h = d.objects.get? h := by
  unfold evictRow
  split_ifs <;> simp [dropObject, dropRow, touchRow, hne]

theorem evictable_evictRow_of_ne {row : String × CacheEntry} (hne : h ≠ row.1) :
    evictable locked (evictRow cfg locked d row) h entry = evictable locked d h entry := by
  simp only [evictable, deletable, (get?_evictRow_of_ne cfg locked d hne).2]

theorem freeable_evictRow {row : String × CacheEntry} (hrow : row.1 ∉ rows.map Prod.fst) :
    freeable locked (evictRow cfg locked d row) rows = freeable locked d rows := by
  refine congrArg List.sum (List.map_congr_left fun r hr => ?_)
  have hne : r.1 ≠ row.1 := by
    intro heq
    apply hrow
    rw [← heq]
    exact List.mem_map_of_mem hr
  rw [evictable_evictRow_of_ne hne]

theorem run_deleteObject_of_deletable (hdel : deletable locked d h = true) :
    ∃ deleted, (deleteObject locked h).run d = (.ok deleted, dropObject d h) := by
  unfold deletable at hdel
  cases hv : validateHash h with
  | error e => simp [hv] at hdel
  | ok n =>
    obtain rfl := eq_of_valid hv
    rw [hv] at hdel
    cases hdata : d.objects.get? n with
    | none =>
      refine ⟨false, ?_⟩
      rw [run_deleteObject_none hv hdata, dropObject, Dict.erase_of_none hdata]
    | some data => exact ⟨true, run_deleteObject hv hdata (by simpa [hdata] using hdel)⟩

theorem run_deleteObject_of_not_deletable (hdel : deletable locked d h = false) :
    ∃ e, (deleteObject locked h).run d = (.error e, d) := by
  unfold deletable at hdel
  cases hv : validateHash h with
  | error e => exact ⟨e, run_deleteObject_invalid hv⟩
  | ok n =>
    obtain rfl := eq_of_valid hv
    rw [hv] at hdel
    cases hdata : d.objects.get? n with
    | none => simp [hdata] at hdel
    | some data => exact ⟨_, run_deleteObject_locked hv hdata (by simpa [hdata] using hdel)⟩

/-- A candidate is evicted if it can be, and passed over otherwise. -/
theorem run_evictCandidates_cons (cfg : CacheConfig) (locked : String → Bool)
    (rows : List (String × CacheEntry)) {target : ℤ} {freed : ℕ} (progress : Bool)
    (hlow : lowerText h = h) (hentry : d.entries.get? h = some entry) (htarget : ¬target ≤ freed) :
    (evictCandidates cfg locked target ((h, entry) :: rows) freed progress).run d =
      if evictable locked d h entry then
        (evictCandidates cfg locked target rows (freed + entry.sizeBytes) true).run
          (evictRow cfg locked d (h, entry))
      else
        (evictCandidates cfg locked target rows freed progress).run
          (evictRow cfg locked d (h, entry)) := by
  rw [evictCandidates, if_neg htarget]
  by_cases hmay : mayEvict entry.state
  · have hmark := run_updateStatus hlow hentry (mayEvict_iff.mp hmay)
    rw [run_bind_ok (run_attempt hmark)]
    dsimp only
    -- the file and its name are the same while the row is marked
    have hsame : deletable locked (setState d h .evicting) h = deletable locked d h := rfl
    cases hdel : deletable locked d h with
    | true =>
      obtain ⟨deleted, hrun⟩ := run_deleteObject_of_deletable (hsame.trans hdel)
      have hdisk : dropRow (dropObject (setState d h .evicting) h) h =
          dropObject (dropRow d h) h := by
        simp [dropRow, dropObject, setState, Dict.erase_modify]
      rw [run_bind_ok (run_attempt hrun)]
      dsimp only
      rw [run_bind_ok (run_removeEntry hlow), hdisk]
      simp [evictable, evictRow, hmay, hdel]
    | false =>
      obtain ⟨e, hrun⟩ := run_deleteObject_of_not_deletable (hsame.trans hdel)
      have hmarked : (setState d h .evicting).entries.get? h =
          some { entry with state := .evicting } := by
        simp [hentry]
      have hback : entry.state ∈ validTransitions .evicting ∨ .evicting = entry.state := by
        revert hmay
        cases entry.state <;> decide
      rw [run_bind_ok (run_attempt hrun)]
      dsimp only
      rw [run_bind_ok (run_updateStatus hlow hmarked hback), setState_setState hentry,
        run_bind_ok (run_touch hlow)]
      simp [evictable, evictRow, hmay, hdel]
  · have hno : .evicting ∉ validTransitions entry.state ∧ entry.state ≠ .evicting := by
      simpa [mayEvict_iff] using hmay
    rw [run_bind_ok (run_attempt (run_updateStatus_error hlow hentry hno))]
    simp [evictable, evictRow, hmay]

/-- **A pass over candidates**: it goes through the shortest part of them that frees enough. -/
theorem run_evictCandidates (cfg : CacheConfig) (locked : String → Bool)
    (target : ℤ) (freed : ℕ) (progress : Bool)
    (hlow : ∀ row ∈ rows, lowerText row.1 = row.1)
    (hrows : ∀ row ∈ rows, d.entries.get? row.1 = some row.2)
    (hnodup : (rows.map Prod.fst).Nodup) :
    ∃ n ≤ rows.length,
      (evictCandidates cfg locked target rows freed progress).run d =
        (.ok (freed + freeable locked d (rows.take n),
          progress || (rows.take n).any fun row => evictable locked d row.1 row.2),
          (rows.take n).foldl (evictRow cfg locked) d) ∧
      (∀ j < n, (freed + freeable locked d (rows.take j) : ℤ) < target) ∧
      (n < rows.length → target ≤ (freed + freeable locked d (rows.take n) : ℤ)) := by
  induction rows generalizing d freed progress with
  | nil => exact ⟨0, le_rfl, by simp [evictCandidates, freeable], by simp, by simp⟩
  | cons row rows ih =>
    obtain ⟨h, entry⟩ := row
    by_cases htarget : target ≤ freed
    · refine ⟨0, Nat.zero_le _, ?_, by simp, fun _ => by simpa [freeable] using htarget⟩
      rw [evictCandidates, if_pos htarget]
      simp [freeable]
    · obtain ⟨hrow, hrest⟩ := List.forall_mem_cons.mp hrows
      obtain ⟨hlow₁, hlow₂⟩ := List.forall_mem_cons.mp hlow
      obtain ⟨hnot, hnodup'⟩ := List.nodup_cons.mp hnodup
      have hsame : ∀ n, freeable locked (evictRow cfg locked d (h, entry)) (rows.take n) =
          freeable locked d (rows.take n) := fun n =>
        freeable_evictRow fun hmem => hnot (((List.take_sublist n rows).map _).subset hmem)
      have hne : ∀ row ∈ rows, row.1 ≠ h := by
        intro row hmem heq
        have hkey : row.1 ∈ rows.map Prod.fst := List.mem_map_of_mem hmem
        exact hnot (heq ▸ hkey)
      have hrest' : ∀ row ∈ rows,
          (evictRow cfg locked d (h, entry)).entries.get? row.1 = some row.2 := fun row hmem =>
        (get?_evictRow_of_ne cfg locked d (hne row hmem)).1.trans (hrest row hmem)
      have hany : ∀ n, ((rows.take n).any fun row =>
          evictable locked (evictRow cfg locked d (h, entry)) row.1 row.2) =
          (rows.take n).any fun row => evictable locked d row.1 row.2 := by
        intro n
        rw [Bool.eq_iff_iff, List.any_eq_true, List.any_eq_true]
        refine exists_congr fun row => and_congr_right fun hmem => ?_
        rw [evictable_evictRow_of_ne (hne row (List.mem_of_mem_take hmem))]
      -- what the rest of the pass makes of the disk after the first row
      have hstep := run_evictCandidates_cons cfg locked rows progress
        hlow₁ hrow htarget
      cases hev : evictable locked d h entry with
      | true =>
        rw [hev, if_pos rfl] at hstep
        obtain ⟨n, hn, hrun, hless, henough⟩ :=
          ih (freed + entry.sizeBytes) true hlow₂ hrest' hnodup'
        have hfree : ∀ n, freeable locked d (((h, entry) :: rows).take (n + 1)) =
            entry.sizeBytes + freeable locked d (rows.take n) := by
          simp [freeable, hev]
        simp only [hsame] at hrun hless henough
        refine ⟨n + 1, by simpa using hn, ?_, fun j hj => ?_, fun hlt => ?_⟩
        · rw [hstep, hrun, hfree]
          simp [hev, add_assoc]
        · cases j with
          | zero => simpa [freeable] using htarget
          | succ j =>
            have := hless j (by omega)
            rw [hfree]
            push_cast at this ⊢
            omega
        · have := henough (by simpa using hlt)
          rw [hfree]
          push_cast at this ⊢
          omega
      | false =>
        rw [hev, if_neg Bool.false_ne_true] at hstep
        obtain ⟨n, hn, hrun, hless, henough⟩ := ih freed progress hlow₂ hrest' hnodup'
        have hfree : ∀ n, freeable locked d (((h, entry) :: rows).take (n + 1)) =
            freeable locked d (rows.take n) := by
          simp [freeable, hev]
        simp only [hsame] at hrun hless henough
        refine ⟨n + 1, by simpa using hn, ?_, fun j hj => ?_, fun hlt => ?_⟩
        · rw [hstep, hrun, hfree, hany]
          simp [hev]
        · cases j with
          | zero => simpa [freeable] using htarget
          | succ j =>
            rw [hfree]
            exact hless j (by omega)
        · rw [hfree]
          exact henough (by simpa using hlt)

/-! ## What eviction keeps -/

/-- Rows are kept in size and state, with their files; those that are gone could be evicted, and
their files are gone too. -/
structure Evicts (locked : String → Bool) (d d' : CacheDisk) : Prop where
  kept : ∀ h entry', d'.entries.get? h = some entry' → ∃ entry, d.entries.get? h = some entry ∧
    entry.sizeBytes = entry'.sizeBytes ∧ entry.state = entry'.state ∧
    d.objects.get? h = d'.objects.get? h
  gone : ∀ h entry, d.entries.get? h = some entry → d'.entries.get? h = none →
    evictable locked d h entry = true ∧ d'.objects.get? h = none
  objects : ∀ h, d.entries.get? h = none → d'.objects.get? h = d.objects.get? h

/-- The sizes of the rows of a disk that are gone from another. -/
def removedBytes (d d' : CacheDisk) : ℕ :=
  d.entries.total fun h entry => if (d'.entries.get? h).isNone then entry.sizeBytes else 0

namespace Evicts

theorem refl (locked : String → Bool) (d : CacheDisk) : Evicts locked d d where
  kept h entry hentry := ⟨entry, hentry, rfl, rfl, rfl⟩
  gone h entry hentry hnone := absurd (hentry.symm.trans hnone) (by simp)
  objects _ _ := rfl

/-- A row that is kept can be evicted as before. -/
theorem evictable_eq {entry' : CacheEntry} (hstate : entry.state = entry'.state)
    (hfile : d.objects.get? h = d'.objects.get? h) :
    evictable locked d h entry = evictable locked d' h entry' := by
  simp only [evictable, deletable, hstate, hfile]

theorem none_of_none (he : Evicts locked d d') (hnone : d.entries.get? h = none) :
    d'.entries.get? h = none := by
  by_contra hsome
  obtain ⟨entry', hentry'⟩ := Option.ne_none_iff_exists'.mp hsome
  obtain ⟨entry, hentry, -⟩ := he.kept h entry' hentry'
  simp [hnone] at hentry

theorem trans {d'' : CacheDisk} (h₁ : Evicts locked d d') (h₂ : Evicts locked d' d'') :
    Evicts locked d d'' where
  kept h entry'' hentry'' := by
    obtain ⟨entry', hentry', hsize', hstate', hfile'⟩ := h₂.kept h entry'' hentry''
    obtain ⟨entry, hentry, hsize, hstate, hfile⟩ := h₁.kept h entry' hentry'
    exact ⟨entry, hentry, hsize.trans hsize', hstate.trans hstate', hfile.trans hfile'⟩
  gone h entry hentry hnone := by
    cases hentry' : d'.entries.get? h with
    | none =>
      obtain ⟨hev, hfile⟩ := h₁.gone h entry hentry hentry'
      exact ⟨hev, (h₂.objects h hentry').trans hfile⟩
    | some entry' =>
      obtain ⟨hev, hfile⟩ := h₂.gone h entry' hentry' hnone
      obtain ⟨entry₁, hentry₁, -, hstate, hfile₁⟩ := h₁.kept h entry' hentry'
      obtain rfl := Option.some.inj (hentry.symm.trans hentry₁)
      exact ⟨(evictable_eq hstate hfile₁).trans hev, hfile⟩
  objects h hnone := (h₂.objects h (h₁.none_of_none hnone)).trans (h₁.objects h hnone)

theorem lowercase (he : Evicts locked d d') (hd : Lowercase d) : Lowercase d' := by
  intro h hh
  obtain ⟨entry', hentry'⟩ := Dict.mem_keys.mp hh
  obtain ⟨entry, hentry, -⟩ := he.kept h entry' hentry'
  exact hd h (Dict.mem_keys.mpr ⟨entry, hentry⟩)

/-- The sizes of the rows that are kept and of those that are gone. -/
theorem getTotalSize (he : Evicts locked d d') :
    getTotalSize d = getTotalSize d' + removedBytes d d' := by
  rw [getTotalSize_eq, getTotalSize_eq]
  apply Dict.total_eq_add
  intro h entry' hentry'
  obtain ⟨entry, hentry, hsize, -⟩ := he.kept h entry' hentry'
  exact ⟨entry, hentry, hsize⟩

/-- What is gone could be freed. -/
theorem freeableTotal (he : Evicts locked d d') :
    freeableTotal locked d = freeableTotal locked d' + removedBytes d d' := by
  have hgone : (d.entries.total fun h entry => if (d'.entries.get? h).isNone then
      (if evictable locked d h entry then entry.sizeBytes else 0) else 0) = removedBytes d d' := by
    refine Dict.total_congr fun h entry hentry => ?_
    cases hnone : d'.entries.get? h with
    | none => simp [(he.gone h entry hentry hnone).1]
    | some _ => rfl
  rw [← hgone, freeableTotal_eq, freeableTotal_eq]
  apply Dict.total_eq_add
  intro h entry' hentry'
  obtain ⟨entry, hentry, hsize, hstate, hfile⟩ := he.kept h entry' hentry'
  exact ⟨entry, hentry, by rw [evictable_eq hstate hfile, hsize]⟩

end Evicts

/-- A candidate that is evicted is gone, and one that is passed over is kept. -/
theorem evicts_evictRow (cfg : CacheConfig) (locked : String → Bool)
    {row : String × CacheEntry} (hrow : d.entries.get? row.1 = some row.2) :
    Evicts locked d (evictRow cfg locked d row) where
  kept h entry' hentry' := by
    by_cases heq : h = row.1
    · subst heq
      revert hentry'
      unfold evictRow
      split_ifs
      · simp [dropObject, dropRow]
      · intro hentry'
        simp only [touchRow, Dict.get?_modify, if_pos, hrow, Option.map_some] at hentry'
        obtain rfl := Option.some.inj hentry'
        exact ⟨row.2, hrow, rfl, rfl, rfl⟩
      · exact fun hentry' => ⟨entry', hentry', rfl, rfl, rfl⟩
    · obtain ⟨hsame, hfile⟩ := get?_evictRow_of_ne cfg locked d heq
      exact ⟨entry', hsame.symm.trans hentry', rfl, rfl, hfile.symm⟩
  gone h entry hentry hnone := by
    by_cases heq : h = row.1
    · subst heq
      obtain rfl := Option.some.inj (hrow.symm.trans hentry)
      revert hnone
      unfold evictRow evictable
      split_ifs with hmay hdel
      · simp [dropObject, hmay, hdel]
      · simp [touchRow, hrow]
      · simp [hrow]
    · have hsame := (get?_evictRow_of_ne cfg locked d heq).1
      simp [hsame, hentry] at hnone
  objects h hnone := by
    have hne : h ≠ row.1 := by
      rintro rfl
      simp [hnone] at hrow
    exact (get?_evictRow_of_ne cfg locked d hne).2

/-- What a candidate frees. -/
theorem getTotalSize_evictRow (cfg : CacheConfig) (locked : String → Bool)
    {row : String × CacheEntry} (hrow : d.entries.get? row.1 = some row.2) :
    getTotalSize d = getTotalSize (evictRow cfg locked d row) + freeable locked d [row] := by
  rw [getTotalSize_eq, getTotalSize_eq]
  unfold evictRow
  split_ifs with hmay hdel
  · simp [dropObject, dropRow, freeable, evictable, hmay, hdel, Dict.total_erase hrow, add_comm]
  · have hsize : (touchRow cfg d row.1).entries.total (fun _ entry => entry.sizeBytes) =
        d.entries.total fun _ entry => entry.sizeBytes := Dict.total_modify (fun _ => by rfl) _
    simp [hsize, freeable, evictable, hdel]
  · simp [freeable, evictable, hmay]

/-- The rows of later candidates are where they were. -/
theorem rows_evictRow (cfg : CacheConfig) (locked : String → Bool) {row : String × CacheEntry}
    (hrows : ∀ r ∈ row :: rows, d.entries.get? r.1 = some r.2)
    (hnodup : ((row :: rows).map Prod.fst).Nodup) :
    (∀ r ∈ rows, r.1 ≠ row.1) ∧
      ∀ r ∈ rows, (evictRow cfg locked d row).entries.get? r.1 = some r.2 := by
  have hne : ∀ r ∈ rows, r.1 ≠ row.1 := by
    intro r hmem heq
    have hkey : r.1 ∈ rows.map Prod.fst := List.mem_map_of_mem hmem
    exact (List.nodup_cons.mp hnodup).1 (heq ▸ hkey)
  refine ⟨hne, fun r hmem => ?_⟩
  exact (get?_evictRow_of_ne cfg locked d (hne r hmem)).1.trans
    (hrows r (List.mem_cons_of_mem _ hmem))

/-- What a list of candidates frees. -/
theorem foldl_evictRow (cfg : CacheConfig) (locked : String → Bool)
    (hrows : ∀ row ∈ rows, d.entries.get? row.1 = some row.2)
    (hnodup : (rows.map Prod.fst).Nodup) :
    Evicts locked d (rows.foldl (evictRow cfg locked) d) ∧
      getTotalSize d = getTotalSize (rows.foldl (evictRow cfg locked) d) +
        freeable locked d rows := by
  induction rows generalizing d with
  | nil => exact ⟨.refl _ _, by simp [freeable]⟩
  | cons row rows ih =>
    have hrow := hrows row List.mem_cons_self
    obtain ⟨hnot, hnodup'⟩ := List.nodup_cons.mp hnodup
    obtain ⟨hevicts, hsize⟩ := ih (rows_evictRow cfg locked hrows hnodup).2 hnodup'
    refine ⟨(evicts_evictRow cfg locked hrow).trans hevicts, ?_⟩
    have hfree : freeable locked d (row :: rows) =
        freeable locked d [row] + freeable locked d rows := freeable_append locked d [row] rows
    rw [getTotalSize_evictRow cfg locked hrow, List.foldl_cons, hsize, freeable_evictRow hnot,
      hfree]
    omega

/-- A candidate that can be evicted is gone. -/
theorem foldl_evictRow_of_evictable {row : String × CacheEntry} (hmem : row ∈ rows)
    (hrows : ∀ row ∈ rows, d.entries.get? row.1 = some row.2) (hnodup : (rows.map Prod.fst).Nodup)
    (hev : evictable locked d row.1 row.2 = true) :
    (rows.foldl (evictRow cfg locked) d).entries.get? row.1 = none := by
  induction rows generalizing d with
  | nil => simp at hmem
  | cons r rows ih =>
    obtain ⟨hne, hrest⟩ := rows_evictRow cfg locked hrows hnodup
    have hnodup' := (List.nodup_cons.mp hnodup).2
    rcases List.mem_cons.mp hmem with rfl | hmem
    · apply (foldl_evictRow cfg locked hrest hnodup').1.none_of_none
      obtain ⟨hmay, hdel⟩ := Bool.and_eq_true_iff.mp hev
      simp [evictRow, hmay, hdel, dropObject, dropRow]
    · apply ih hmem hrest hnodup'
      rwa [evictable_evictRow_of_ne (hne row hmem)]

end Aidars.Cache
