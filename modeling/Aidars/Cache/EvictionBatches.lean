import Aidars.Cache.Eviction
import Aidars.Cache.Reconciliation

/-!
# Batches of evictions

The evictor takes the 100 rows that were used least recently, again and again, until it has freed
enough or a batch removes nothing.

The rows that it passes over can fill a batch: those that may not be evicted are in every batch
again, and those whose files are locked go to the end of the order. It frees enough, whenever there
is enough that it could free, exactly if a row that is new in each batch can be removed
(`evictToFree_frees_iff`).
-/

namespace Aidars.Cache

open Prog

variable {cfg : CacheConfig} {locked : String → Bool} {d d' : CacheDisk} {h : String}
  {entry : CacheEntry} {rows : List (String × CacheEntry)}

/-! ## Batches -/

/-- The first rows of a batch. -/
def batchRows (d : CacheDisk) (n : ℕ) : List (String × CacheEntry) :=
  (getLruCandidates d 100).take n

/-- The disk after the first rows of a batch were candidates. -/
def afterRows (cfg : CacheConfig) (locked : String → Bool) (d : CacheDisk) (n : ℕ) : CacheDisk :=
  (batchRows d n).foldl (evictRow cfg locked) d

/-- The disk after a whole batch. -/
def afterBatch (cfg : CacheConfig) (locked : String → Bool) (d : CacheDisk) : CacheDisk :=
  (getLruCandidates d 100).foldl (evictRow cfg locked) d

theorem batchRows_of_length_le {n : ℕ} (hn : (getLruCandidates d 100).length ≤ n) :
    batchRows d n = getLruCandidates d 100 := List.take_of_length_le hn

theorem mem_getLruCandidates {n : ℕ} {row : String × CacheEntry}
    (hrow : row ∈ getLruCandidates d n) : d.entries.get? row.1 = some row.2 := by
  rw [getLruCandidates_eq] at hrow
  exact mem_leastRecent.mp (List.mem_of_mem_take hrow)

theorem mem_batchRows {n : ℕ} {row : String × CacheEntry} (hrow : row ∈ batchRows d n) :
    d.entries.get? row.1 = some row.2 :=
  mem_getLruCandidates (List.mem_of_mem_take hrow)

theorem nodup_getLruCandidates (d : CacheDisk) (n : ℕ) :
    ((getLruCandidates d n).map Prod.fst).Nodup := by
  rw [getLruCandidates_eq]
  exact (nodup_leastRecent d).sublist ((List.take_sublist n _).map _)

theorem nodup_batchRows (d : CacheDisk) (n : ℕ) : ((batchRows d n).map Prod.fst).Nodup :=
  (nodup_getLruCandidates d 100).sublist ((List.take_sublist n _).map _)

/-- What the first rows of a batch free. -/
theorem afterRows_spec (cfg : CacheConfig) (locked : String → Bool) (d : CacheDisk) (n : ℕ) :
    Evicts locked d (afterRows cfg locked d n) ∧
      getTotalSize d = getTotalSize (afterRows cfg locked d n) +
        freeable locked d (batchRows d n) :=
  foldl_evictRow cfg locked (fun _ => mem_batchRows) (nodup_batchRows d n)

theorem length_afterRows_lt (cfg : CacheConfig) {n : ℕ}
    (hany : (batchRows d n).any (fun row => evictable locked d row.1 row.2) = true) :
    (afterRows cfg locked d n).entries.keys.length < d.entries.keys.length := by
  obtain ⟨row, hrow, hev⟩ := List.any_eq_true.mp hany
  have hkey : row.1 ∈ d.entries.keys := Dict.mem_keys.mpr ⟨_, mem_batchRows hrow⟩
  have hgone : (afterRows cfg locked d n).entries.get? row.1 = none :=
    foldl_evictRow_of_evictable hrow (fun _ => mem_batchRows) (nodup_batchRows d n) hev
  have hsub : (afterRows cfg locked d n).entries.keys ⊆ d.entries.keys.erase row.1 := by
    intro h hh
    have hnodup : d.entries.keys.Nodup := d.entries.nodup
    rw [hnodup.mem_erase_iff]
    obtain ⟨entry', hentry'⟩ := Dict.mem_keys.mp hh
    obtain ⟨entry, hentry, -⟩ := (afterRows_spec cfg locked d n).1.kept h entry' hentry'
    refine ⟨?_, Dict.mem_keys.mpr ⟨entry, hentry⟩⟩
    rintro rfl
    simp [hgone] at hentry'
  have hle := (List.subperm_of_subset (afterRows cfg locked d n).entries.nodup hsub).length_le
  have hpos := List.length_pos_of_mem hkey
  rw [List.length_erase_of_mem hkey] at hle
  change (afterRows cfg locked d n).entries.keys.length ≤ _ at hle
  omega

/-- **A batch** goes through the shortest part of the candidates that frees enough, and is the last
one if it evicts nothing. -/
theorem run_evictBatches (cfg : CacheConfig) (locked : String → Bool) (target : ℤ)
    (fuel freed : ℕ) (hd : Lowercase d) :
    ∃ n ≤ (getLruCandidates d 100).length,
      (evictBatches cfg locked target (fuel + 1) freed).run d =
        (if (batchRows d n).any (fun row => evictable locked d row.1 row.2) then
          (evictBatches cfg locked target fuel (freed + freeable locked d (batchRows d n))).run
            (afterRows cfg locked d n)
        else (.ok (freed + freeable locked d (batchRows d n)), afterRows cfg locked d n)) ∧
      (∀ j < n, (freed + freeable locked d (batchRows d j) : ℤ) < target) ∧
      (n < (getLruCandidates d 100).length →
        target ≤ (freed + freeable locked d (batchRows d n) : ℤ)) := by
  rw [evictBatches]
  split_ifs with htarget
  · exact ⟨0, Nat.zero_le _, by simp [batchRows, afterRows, freeable], by simp,
      fun _ => by simpa [batchRows, freeable] using htarget⟩
  · rw [run_read_bind]
    have hrows : ∀ row ∈ getLruCandidates d 100, d.entries.get? row.1 = some row.2 :=
      fun _ => mem_getLruCandidates
    obtain ⟨n, hn, hrun, hless, henough⟩ := run_evictCandidates cfg locked
      target freed false (fun row hrow => hd _ (Dict.mem_keys.mpr ⟨_, hrows row hrow⟩)) hrows
      (nodup_getLruCandidates d 100)
    refine ⟨n, hn, ?_, hless, henough⟩
    cases hcand : getLruCandidates d 100 with
    | nil => simp [batchRows, afterRows, freeable, hcand]
    | cons row rows =>
      change _ = (Except.ok (freed + freeable locked d (batchRows d n),
        false || (batchRows d n).any fun row => evictable locked d row.1 row.2),
          afterRows cfg locked d n) at hrun
      rw [← hcand, if_neg (by simp [hcand]), run_bind_ok hrun, Bool.false_or]
      dsimp only
      split_ifs <;> rfl

/-! ## The loop -/

/-- The loop ends without an error, and what it counts as freed are the sizes of rows that are
gone. -/
theorem run_evictBatches_ok (cfg : CacheConfig) (locked : String → Bool) (target : ℤ)
    (fuel freed : ℕ) (hd : Lowercase d) :
    ∃ freed' d', (evictBatches cfg locked target fuel freed).run d = (.ok freed', d') ∧
      Evicts locked d d' ∧ freed' + getTotalSize d' = freed + getTotalSize d := by
  induction fuel generalizing d freed with
  | zero => exact ⟨freed, d, rfl, .refl _ _, rfl⟩
  | succ fuel ih =>
    obtain ⟨n, -, hrun, -⟩ := run_evictBatches cfg locked target fuel freed hd
    obtain ⟨hevicts, hsize⟩ := afterRows_spec cfg locked d n
    rw [hrun]
    split_ifs
    · obtain ⟨freed', d', hrun', hevicts', hsize'⟩ :=
        ih (freed + freeable locked d (batchRows d n)) (hevicts.lowercase hd)
      exact ⟨freed', d', hrun', hevicts.trans hevicts', by omega⟩
    · exact ⟨_, _, rfl, hevicts, by omega⟩

/-- No candidate of the next batch can be evicted, but another row can. -/
def Stalled (locked : String → Bool) (d : CacheDisk) : Prop :=
  (∃ h entry, d.entries.get? h = some entry ∧ evictable locked d h entry = true) ∧
    ∀ row ∈ getLruCandidates d 100, evictable locked d row.1 row.2 = false

/-- While batches have freed less than the target, the next one does not stall. -/
def KeepsGoing (cfg : CacheConfig) (locked : String → Bool) (target : ℤ) (d : CacheDisk) : Prop :=
  ∀ n, (getTotalSize d : ℤ) - getTotalSize ((afterBatch cfg locked)^[n] d) < target →
    ¬Stalled locked ((afterBatch cfg locked)^[n] d)

/-- What a whole batch frees. -/
theorem evicts_afterBatch (cfg : CacheConfig) (locked : String → Bool) (d : CacheDisk) :
    Evicts locked d (afterBatch cfg locked d) ∧
      getTotalSize d = getTotalSize (afterBatch cfg locked d) +
        freeable locked d (getLruCandidates d 100) :=
  foldl_evictRow cfg locked (fun _ => mem_getLruCandidates) (nodup_getLruCandidates d 100)

theorem evicts_iterate (cfg : CacheConfig) (locked : String → Bool) (d : CacheDisk) (n : ℕ) :
    Evicts locked d ((afterBatch cfg locked)^[n] d) := by
  induction n with
  | zero => exact .refl locked d
  | succ n ih =>
    rw [Function.iterate_succ_apply']
    exact ih.trans (evicts_afterBatch cfg locked _).1

/-- After whole batches no more is there than before. -/
theorem getTotalSize_iterate_le (cfg : CacheConfig) (locked : String → Bool) (d : CacheDisk)
    (n : ℕ) : getTotalSize ((afterBatch cfg locked)^[n] d) ≤ getTotalSize d := by
  have hsize := (evicts_iterate cfg locked d n).getTotalSize
  omega

theorem exists_evictable (hfree : 0 < freeableTotal locked d) :
    ∃ h entry, d.entries.get? h = some entry ∧ evictable locked d h entry = true := by
  by_contra hnone
  push Not at hnone
  have hzero : freeableTotal locked d = 0 := by
    rw [freeableTotal_eq]
    exact Dict.total_eq_zero fun h entry hentry => if_neg (hnone h entry hentry)
  omega

/-- A batch without a row that can be evicted frees nothing. -/
theorem freeable_of_not_any
    (hany : ¬(rows.any fun row => evictable locked d row.1 row.2) = true) :
    freeable locked d rows = 0 := by
  apply freeable_eq_zero
  simpa using hany

/-- **A loop that stalls frees too little.** -/
theorem run_evictBatches_of_stalled {target : ℤ} {fuel freed freed' n : ℕ} (hd : Lowercase d)
    (hsize : (freed + getTotalSize d : ℤ) - getTotalSize ((afterBatch cfg locked)^[n] d) < target)
    (hstalled : Stalled locked ((afterBatch cfg locked)^[n] d))
    (hrun : (evictBatches cfg locked target fuel freed).run d = (.ok freed', d')) :
    (freed' : ℤ) < target := by
  have hle := getTotalSize_iterate_le cfg locked d n
  induction fuel generalizing d freed n with
  | zero =>
    obtain ⟨⟨⟩, -⟩ := Prod.mk.inj hrun
    omega
  | succ fuel ih =>
    obtain ⟨m, hm, hstep, -, henough⟩ :=
      run_evictBatches cfg locked target fuel freed hd
    rw [hrun] at hstep
    cases n with
    | zero =>
      have hnone : ¬((batchRows d m).any fun row => evictable locked d row.1 row.2) = true := by
        simpa [batchRows] using fun a b hmem => hstalled.2 (a, b) (List.mem_of_mem_take hmem)
      rw [if_neg hnone, freeable_of_not_any hnone] at hstep
      obtain ⟨⟨⟩, -⟩ := Prod.mk.inj hstep
      simp only [Function.iterate_zero, id_eq] at hsize
      omega
    | succ n =>
      rw [Function.iterate_succ_apply] at hsize hstalled hle
      have hrest := getTotalSize_iterate_le cfg locked (afterBatch cfg locked d) n
      obtain ⟨hevicts, hbatch⟩ := evicts_afterBatch cfg locked d
      have htake : freeable locked d (batchRows d m) ≤
          freeable locked d (getLruCandidates d 100) := freeable_take_le locked d _ m
      -- the target is not reached within the batch, so that the batch is gone through
      have hwhole : batchRows d m = getLruCandidates d 100 := by
        apply batchRows_of_length_le
        by_contra hlt
        have := henough (by omega)
        omega
      have hafter : afterRows cfg locked d m = afterBatch cfg locked d := by
        rw [afterRows, hwhole, afterBatch]
      rw [hwhole] at hstep
      split_ifs at hstep with hany
      · rw [hafter] at hstep
        refine ih (hevicts.lowercase hd) ?_ hstalled hstep.symm hrest
        push_cast
        omega
      · obtain ⟨⟨⟩, -⟩ := Prod.mk.inj hstep
        rw [freeable_of_not_any hany]
        omega

/-- **A loop that never stalls frees enough.** -/
theorem run_evictBatches_of_keepsGoing {target : ℤ} {fuel freed freed' : ℕ} (hd : Lowercase d)
    (hfuel : d.entries.keys.length < fuel)
    (htarget : target - freed ≤ freeableTotal locked d)
    (hgoing : KeepsGoing cfg locked (target - freed) d)
    (hrun : (evictBatches cfg locked target fuel freed).run d = (.ok freed', d')) :
    target ≤ freed' := by
  induction fuel generalizing d freed with
  | zero => omega
  | succ fuel ih =>
    obtain ⟨m, hm, hstep, -, henough⟩ :=
      run_evictBatches cfg locked target fuel freed hd
    obtain ⟨hevicts, hsize⟩ := afterRows_spec cfg locked d m
    have hgone := hevicts.getTotalSize
    have hfree := hevicts.freeableTotal
    rw [hrun] at hstep
    by_cases hreached : target ≤ (freed + freeable locked d (batchRows d m) : ℤ)
    · split_ifs at hstep with hany
      · obtain ⟨freed'', d'', hrun', hevicts', hsize'⟩ := run_evictBatches_ok cfg locked target fuel
          (freed + freeable locked d (batchRows d m)) (hevicts.lowercase hd)
        obtain ⟨⟨⟩, rfl⟩ := Prod.mk.inj (hstep.trans hrun')
        have := hevicts'.getTotalSize
        omega
      · obtain ⟨⟨⟩, -⟩ := Prod.mk.inj hstep
        push_cast
        exact hreached
    · have hwhole : batchRows d m = getLruCandidates d 100 := by
        apply batchRows_of_length_le
        by_contra hlt
        exact hreached (henough (by omega))
      have hafter : afterRows cfg locked d m = afterBatch cfg locked d := by
        rw [afterRows, hwhole, afterBatch]
      split_ifs at hstep with hany
      · have hfewer := length_afterRows_lt cfg hany
        refine ih (hevicts.lowercase hd) (by omega) ?_ ?_ hstep.symm
        · push_cast
          omega
        · intro n hn
          have hnext := hgoing (n + 1)
          rw [Function.iterate_succ_apply] at hnext
          rw [hafter] at hn hsize ⊢
          apply hnext
          push_cast at hn
          omega
      · exfalso
        have hzero := freeable_of_not_any hany
        have hnow := hgoing 0 (by simp; omega)
        have hsome := @exists_evictable locked d (by omega)
        rw [hwhole] at hany
        exact hnow ⟨hsome, by simpa using hany⟩

/-! ## The order of use while batches go by -/

/-- The place of a row in the order of use. -/
def useKey (row : String × CacheEntry) : ℚ ×ₗ String := toLex (row.2.lastAccessedAt, row.1)

theorem leastRecent_eq (hmem : ∀ row, row ∈ rows ↔ d.entries.get? row.1 = some row.2)
    (hnodup : (rows.map Prod.fst).Nodup)
    (hsorted : rows.Pairwise fun a b => useKey a ≤ useKey b) : leastRecent d = rows := by
  have hperm : d.entries.entries.Perm rows :=
    (List.perm_ext_iff_of_nodup d.entries.nodup.of_map hnodup.of_map).mpr fun row =>
      Dict.mem_entries.trans (hmem row).symm
  refine sortOn_eq_of_perm_of_pairwise (fun a ha b hb hab => ?_) hperm hsorted
  refine List.inj_on_of_nodup_map hnodup ha hb ?_
  simpa [useKey] using congrArg (fun k => (ofLex k).2) hab

theorem pairwise_leastRecent (d : CacheDisk) :
    (leastRecent d).Pairwise fun a b => useKey a ≤ useKey b := pairwise_sortOn useKey _

/-- The order of use begins with the rows, and no row behind them can be evicted. -/
def InFront (locked : String → Bool) (d : CacheDisk) (rows : List (String × CacheEntry)) : Prop :=
  ∃ tail, leastRecent d = rows ++ tail ∧ ∀ row ∈ tail, evictable locked d row.1 row.2 = false

/-- A candidate that is evicted or touched is no longer among the rows in front. -/
theorem InFront.evictRow {row : String × CacheEntry} {kept rest : List (String × CacheEntry)}
    (hfront : InFront locked d (kept ++ row :: rest)) (hmay : mayEvict row.2.state = true)
    (hlater : ∀ r ∈ kept ++ rest, r.2.lastAccessedAt < cfg.clock d.readings) :
    InFront locked (evictRow cfg locked d row) (kept ++ rest) := by
  obtain ⟨tail, horder, htail⟩ := hfront
  have hmem : ∀ r, r ∈ kept ++ rest ++ row :: tail ↔ d.entries.get? r.1 = some r.2 := by
    intro r
    rw [← mem_leastRecent, horder]
    simp only [List.mem_append, List.mem_cons]
    tauto
  have hperm : (leastRecent d).Perm (row :: (kept ++ rest ++ tail)) := by
    rw [horder]
    simp
  have hnodup := (hperm.map Prod.fst).nodup_iff.mp (nodup_leastRecent d)
  obtain ⟨hnot, hnodup'⟩ := List.nodup_cons.mp hnodup
  have hne : ∀ r ∈ kept ++ rest ++ tail, r.1 ≠ row.1 := by
    intro r hr heq
    apply hnot
    rw [← heq]
    exact List.mem_map_of_mem hr
  have hsorted : (kept ++ rest ++ tail).Pairwise fun a b => useKey a ≤ useKey b := by
    have hsub : (kept ++ rest ++ tail).Sublist (leastRecent d) := by
      rw [horder]
      simp
    exact (pairwise_leastRecent d).sublist hsub
  have hkept : ∀ r ∈ tail, evictable locked (Cache.evictRow cfg locked d row) r.1 r.2 = false :=
    fun r hr => (evictable_evictRow_of_ne (hne r (List.mem_append_right _ hr))).trans (htail r hr)
  have hothers : ∀ r, r.1 ≠ row.1 → (r ∈ kept ++ rest ++ tail ↔
      (Cache.evictRow cfg locked d row).entries.get? r.1 = some r.2) := by
    intro r hr
    rw [(get?_evictRow_of_ne cfg locked d hr).1, ← mem_leastRecent, hperm.mem_iff, List.mem_cons]
    refine ⟨.inr, fun hmem => hmem.resolve_left ?_⟩
    rintro rfl
    exact hr rfl
  cases hdel : deletable locked d row.1 with
  | true =>
    refine ⟨tail, leastRecent_eq (fun r => ?_) hnodup' hsorted, hkept⟩
    by_cases heq : r.1 = row.1
    · refine iff_of_false (fun hr => hne r hr heq) ?_
      simp [Cache.evictRow, hmay, hdel, heq, dropObject, dropRow]
    · exact hothers r heq
  | false =>
    -- a row that is touched is behind the others now
    let touched := (row.1, row.2.touched (cfg.clock d.readings))
    have hrow : d.entries.get? row.1 = some row.2 := mem_leastRecent.mp (by simp [horder])
    have htouched : (Cache.evictRow cfg locked d row).entries.get? row.1 = some touched.2 := by
      simp [Cache.evictRow, hmay, hdel, touchRow, hrow, touched]
    have hlast := perm_sortOn useKey (touched :: tail)
    have hperm' : (kept ++ rest ++ sortOn useKey (touched :: tail)).Perm
        (touched :: (kept ++ rest ++ tail)) := (hlast.append_left _).trans List.perm_middle
    refine ⟨sortOn useKey (touched :: tail), leastRecent_eq (fun r => ?_) ?_ ?_, ?_⟩
    · rw [hperm'.mem_iff, List.mem_cons]
      by_cases heq : r.1 = row.1
      · rw [or_iff_left fun hr => hne r hr heq, heq, htouched, Option.some.injEq]
        exact ⟨fun hr => (congrArg Prod.snd hr).symm, fun hr => Prod.ext heq hr.symm⟩
      · have hneq : r ≠ touched := by
          rintro rfl
          exact heq rfl
        rw [or_iff_right hneq]
        exact hothers r heq
    · rw [(hperm'.map Prod.fst).nodup_iff]
      exact hnodup
    · refine List.pairwise_append.mpr ⟨hsorted.sublist (by simp), pairwise_sortOn _ _, ?_⟩
      intro a ha b hb
      rcases List.mem_cons.mp (hlast.mem_iff.mp hb) with rfl | hb
      · exact Prod.Lex.toLex_le_toLex.mpr (.inl (hlater a ha))
      · exact (List.pairwise_append.mp hsorted).2.2 a ha b hb
    · intro r hr
      rcases List.mem_cons.mp (hlast.mem_iff.mp hr) with rfl | hr
      · have hfile : deletable locked (touchRow cfg d row.1) row.1 = false := hdel
        rw [Cache.evictRow, if_pos hmay, hdel, if_neg Bool.false_ne_true, evictable, hfile,
          Bool.and_false]
      · exact hkept r hr

/-- The clock reads later than all accesses that are noted. -/
def ReadsLater (cfg : CacheConfig) (d : CacheDisk) : Prop :=
  ∀ h entry, d.entries.get? h = some entry → ∀ n ≥ d.readings, entry.lastAccessedAt < cfg.clock n

/-- The rows that may not be evicted. -/
def inTheWay (rows : List (String × CacheEntry)) : List (String × CacheEntry) :=
  rows.filter fun row => !mayEvict row.2.state

/-- Candidates that may not be evicted stay in front, and the others do not. -/
theorem InFront.foldl {kept rest : List (String × CacheEntry)}
    (hfront : InFront locked d (kept ++ rows ++ rest))
    (hlater : ∀ r ∈ kept ++ rows ++ rest, ∀ n ≥ d.readings, r.2.lastAccessedAt < cfg.clock n) :
    InFront locked (rows.foldl (Cache.evictRow cfg locked) d) (kept ++ inTheWay rows ++ rest) ∧
      d.readings ≤ (rows.foldl (Cache.evictRow cfg locked) d).readings := by
  induction rows generalizing d kept with
  | nil => exact ⟨hfront, le_rfl⟩
  | cons row rows ih =>
    cases hmay : mayEvict row.2.state with
    | false =>
      have hsame : Cache.evictRow cfg locked d row = d := by simp [Cache.evictRow, hmay]
      have hnext := @ih d (kept ++ [row])
      rw [List.append_assoc kept [row]] at hnext
      rw [List.foldl_cons, hsame]
      simpa [inTheWay, hmay] using hnext (by simpa using hfront) (by simpa using hlater)
    | true =>
      have hread : d.readings ≤ (Cache.evictRow cfg locked d row).readings := by
        unfold Cache.evictRow
        split_ifs <;> simp [dropObject, dropRow, touchRow]
      have hfront' : InFront locked (Cache.evictRow cfg locked d row) (kept ++ rows ++ rest) := by
        rw [List.append_assoc] at hfront ⊢
        exact hfront.evictRow hmay fun r hr => hlater r (by simp at hr ⊢; tauto) _ le_rfl
      obtain ⟨hrest, hle⟩ := ih hfront' fun r hr n hn =>
        hlater r (by simp at hr ⊢; tauto) n (hread.trans hn)
      exact ⟨by simpa [inTheWay, hmay] using hrest, hread.trans hle⟩

/-- The place in the order of use where the rows begin that are new in a batch: those before it were
evicted or touched, or fill the front of the batch. -/
def batchStart (d : CacheDisk) : ℕ → ℕ
  | 0 => 0
  | n + 1 => batchStart d n + (100 - (inTheWay ((leastRecent d).take (batchStart d n))).length)

/-- The rows that are new in a batch. -/
def newRows (d : CacheDisk) (n : ℕ) : List (String × CacheEntry) :=
  ((leastRecent d).drop (batchStart d n)).take
    (100 - (inTheWay ((leastRecent d).take (batchStart d n))).length)

theorem inTheWay_append (rows rows' : List (String × CacheEntry)) :
    inTheWay (rows ++ rows') = inTheWay rows ++ inTheWay rows' := List.filter_append ..

theorem freeable_inTheWay (locked : String → Bool) (d : CacheDisk)
    (rows : List (String × CacheEntry)) : freeable locked d (inTheWay rows) = 0 := by
  refine freeable_eq_zero fun row hrow => ?_
  have hmay : mayEvict row.2.state = false := by simpa using (List.mem_filter.mp hrow).2
  rw [evictable, hmay, Bool.false_and]

/-- What batches have done when the rows behind a place in the order of use were no candidates. -/
structure BatchesPass (cfg : CacheConfig) (locked : String → Bool) (d d' : CacheDisk) (n : ℕ) :
    Prop where
  evicts : Evicts locked d d'
  readings : d.readings ≤ d'.readings
  front : InFront locked d' (inTheWay ((leastRecent d).take n) ++ (leastRecent d).drop n)
  size : getTotalSize d = getTotalSize d' + freeable locked d ((leastRecent d).take n)

theorem BatchesPass.evictable_eq {n : ℕ} (hpass : BatchesPass cfg locked d d' n)
    {row : String × CacheEntry}
    (hrow : row ∈ inTheWay ((leastRecent d).take n) ++ (leastRecent d).drop n) :
    evictable locked d' row.1 row.2 = evictable locked d row.1 row.2 := by
  obtain ⟨tail, horder, -⟩ := hpass.front
  have hrow' : d'.entries.get? row.1 = some row.2 :=
    mem_leastRecent.mp (horder ▸ List.mem_append_left _ hrow)
  obtain ⟨entry, -, -, hstate, hfile⟩ := hpass.evicts.kept _ _ hrow'
  exact Eq.symm (Evicts.evictable_eq rfl hfile)

/-- A batch of rows that may not be evicted and rows that are new. -/
theorem BatchesPass.batch {n : ℕ} (hlater : ReadsLater cfg d)
    (hpass : BatchesPass cfg locked d d' n)
    (hlong : 100 < (inTheWay ((leastRecent d).take n) ++ (leastRecent d).drop n).length) :
    BatchesPass cfg locked d (afterBatch cfg locked d')
      (n + (100 - (inTheWay ((leastRecent d).take n)).length)) := by
  set before := inTheWay ((leastRecent d).take n) with hbefore
  set new := ((leastRecent d).drop n).take (100 - before.length) with hnew
  obtain ⟨tail, horder, htail⟩ := hpass.front
  have hbatch : getLruCandidates d' 100 = before.take 100 ++ new := by
    rw [getLruCandidates_eq, horder, List.take_append_of_le_length hlong.le, List.take_append]
  have hrest : (leastRecent d).drop n =
      new ++ (leastRecent d).drop (n + (100 - before.length)) := by
    rw [← List.drop_drop, List.take_append_drop]
  -- no row is new in a batch that is full before
  have hsplit : before ++ (leastRecent d).drop n = before.take 100 ++ new ++
        (before.drop 100 ++ (leastRecent d).drop (n + (100 - before.length))) ∧
      before ++ inTheWay new = before.take 100 ++ inTheWay new ++ before.drop 100 := by
    rcases le_total before.length 100 with hle | hle
    · rw [List.take_of_length_le hle, List.drop_of_length_le hle, hrest]
      simp
    · have hnone : new = [] := by simp [hnew, Nat.sub_eq_zero_of_le hle]
      rw [hrest, hnone, List.nil_append, List.append_nil, ← List.append_assoc,
        List.take_append_drop]
      simp [inTheWay]
  have hwas : inTheWay (before.take 100) = before.take 100 := by
    refine List.filter_eq_self.mpr fun row hrow => ?_
    exact (List.mem_filter.mp (List.mem_of_mem_take hrow)).2
  have hmem : ∀ row ∈ before ++ (leastRecent d).drop n, d.entries.get? row.1 = some row.2 := by
    intro row hrow
    apply mem_leastRecent.mp
    rcases List.mem_append.mp hrow with hrow | hrow
    · exact List.mem_of_mem_take (List.mem_filter.mp hrow).1
    · exact List.mem_of_mem_drop hrow
  obtain ⟨hevicts, hsize⟩ := evicts_afterBatch cfg locked d'
  have hfront := hpass.front
  rw [← hbefore, hsplit.1] at hfront
  rw [hsplit.1] at hmem
  obtain ⟨hfront', hreadings⟩ := @InFront.foldl cfg locked d' (before.take 100 ++ new) [] _
    hfront fun row hrow m hm => hlater row.1 row.2 (hmem row hrow) m (hpass.readings.trans hm)
  rw [← hbatch] at hfront' hreadings
  have htake : (leastRecent d).take (n + (100 - before.length)) =
      (leastRecent d).take n ++ new := List.take_add
  refine ⟨hpass.evicts.trans hevicts, hpass.readings.trans hreadings, ?_, ?_⟩
  · rw [htake, inTheWay_append, ← hbefore, hsplit.2]
    simpa [afterBatch, hbatch, inTheWay_append, hwas] using hfront'
  · have hnone : freeable locked d' (before.take 100) = 0 := by
      rw [← hwas]
      exact freeable_inTheWay ..
    have hnew' : freeable locked d' new = freeable locked d new := by
      refine congrArg List.sum (List.map_congr_left fun row hrow => ?_)
      rw [hpass.evictable_eq]
      rw [hrest]
      simp [hrow]
    have hpart : freeable locked d' (getLruCandidates d' 100) = freeable locked d new := by
      rw [hbatch, freeable_append, hnone, hnew', Nat.zero_add]
    rw [hpass.size, hsize, htake, freeable_append, hpart]
    omega

theorem freeableTotal_leastRecent (locked : String → Bool) (d : CacheDisk) :
    freeableTotal locked d = freeable locked d (leastRecent d) :=
  ((perm_sortOn useKey d.entries.entries).map _).sum_eq.symm

/-- A batch that holds all rows in front leaves nothing that could be freed. -/
theorem freeableTotal_afterBatch (hfront : InFront locked d rows) (hshort : rows.length ≤ 100) :
    freeableTotal locked (afterBatch cfg locked d) = 0 := by
  obtain ⟨tail, horder, htail⟩ := hfront
  obtain ⟨hevicts, hsize⟩ := evicts_afterBatch cfg locked d
  have hremoved := hevicts.getTotalSize
  have hfree := hevicts.freeableTotal
  have hall : freeableTotal locked d = freeable locked d rows := by
    rw [freeableTotal_leastRecent, horder, freeable_append, freeable_eq_zero htail, add_zero]
  have hbatch : freeable locked d rows ≤ freeable locked d (getLruCandidates d 100) := by
    rw [getLruCandidates_eq, horder, List.take_append, List.take_of_length_le hshort,
      freeable_append]
    omega
  omega

/-- **Whole batches** go by the rows before a place in the order of use, and at its end nothing is
left that could be freed. -/
theorem iterate_afterBatch (locked : String → Bool) (hlater : ReadsLater cfg d) (n : ℕ) :
    (batchStart d n < (leastRecent d).length →
        BatchesPass cfg locked d ((afterBatch cfg locked)^[n] d) (batchStart d n)) ∧
      ((leastRecent d).length ≤ batchStart d n →
        freeableTotal locked ((afterBatch cfg locked)^[n] d) = 0) := by
  induction n with
  | zero =>
    refine ⟨fun _ => ⟨.refl _ _, le_rfl, ⟨[], by simp [batchStart, inTheWay], by simp⟩,
      by simp [batchStart, freeable]⟩, fun hlen => ?_⟩
    rw [Function.iterate_zero, id_eq, freeableTotal_leastRecent,
      List.length_eq_zero_iff.mp (Nat.le_zero.mp hlen)]
    rfl
  | succ n ih =>
    rw [Function.iterate_succ_apply']
    set d' := (afterBatch cfg locked)^[n] d
    rcases lt_or_ge (batchStart d n) (leastRecent d).length with hlt | hge
    · have hpass := ih.1 hlt
      have hlength : (inTheWay ((leastRecent d).take (batchStart d n)) ++
          (leastRecent d).drop (batchStart d n)).length =
          (inTheWay ((leastRecent d).take (batchStart d n))).length +
            ((leastRecent d).length - batchStart d n) := by
        rw [List.length_append, List.length_drop]
      refine ⟨fun hnext => hpass.batch hlater ?_, fun hnext => ?_⟩
      · rw [batchStart] at hnext
        omega
      · rw [batchStart] at hnext
        exact freeableTotal_afterBatch hpass.front (by omega)
    · have hfree := (evicts_afterBatch cfg locked d').1.freeableTotal
      have hnone := ih.2 hge
      have hend : (leastRecent d).length ≤ batchStart d (n + 1) := hge.trans (Nat.le_add_right _ _)
      exact ⟨fun hlt => absurd hlt (not_lt.mpr hend), fun _ => by omega⟩

/-- While less than the target is freed, the rows that are new in a batch include one that can be
evicted. -/
def NewRowsHelp (locked : String → Bool) (target : ℤ) (d : CacheDisk) : Prop :=
  ∀ n, (freeable locked d ((leastRecent d).take (batchStart d n)) : ℤ) < target →
    ∃ row ∈ newRows d n, evictable locked d row.1 row.2 = true

/-- Exactly the rows that are new can be evicted in a batch. -/
theorem BatchesPass.any_iff {n : ℕ} (hpass : BatchesPass cfg locked d d' (batchStart d n)) :
    (∃ row ∈ getLruCandidates d' 100, evictable locked d' row.1 row.2 = true) ↔
      ∃ row ∈ newRows d n, evictable locked d row.1 row.2 = true := by
  obtain ⟨tail, horder, htail⟩ := hpass.front
  have hnew : ∀ row ∈ newRows d n,
      evictable locked d' row.1 row.2 = evictable locked d row.1 row.2 := fun row hrow =>
    hpass.evictable_eq (List.mem_append_right _ (List.mem_of_mem_take hrow))
  rw [getLruCandidates_eq, horder, List.take_append, List.take_append]
  constructor
  · rintro ⟨row, hrow, hev⟩
    rcases List.mem_append.mp hrow with hrow | hrow
    · rcases List.mem_append.mp hrow with hrow | hrow
      · have hmay : mayEvict row.2.state = false := by
          simpa using (List.mem_filter.mp (List.mem_of_mem_take hrow)).2
        simp [evictable, hmay] at hev
      · exact ⟨row, hrow, (hnew row hrow).symm.trans hev⟩
    · simp [htail row (List.mem_of_mem_take hrow)] at hev
  · rintro ⟨row, hrow, hev⟩
    exact ⟨row, List.mem_append_left _ (List.mem_append_right _ hrow), (hnew row hrow).trans hev⟩

/-- **No batch stalls exactly if new rows help.** -/
theorem keepsGoing_iff {target : ℤ} (hlater : ReadsLater cfg d)
    (hfree : target ≤ freeableTotal locked d) :
    KeepsGoing cfg locked target d ↔ NewRowsHelp locked target d := by
  refine forall_congr' fun n => ?_
  obtain ⟨hpass, hend⟩ := iterate_afterBatch locked hlater n
  have hevicts := evicts_iterate cfg locked d n
  set d' := (afterBatch cfg locked)^[n] d
  rcases lt_or_ge (batchStart d n) (leastRecent d).length with hlt | hge
  · have hsize := (hpass hlt).size
    have hsame : ((getTotalSize d : ℤ) - getTotalSize d' < target) ↔
        (freeable locked d ((leastRecent d).take (batchStart d n)) : ℤ) < target := by omega
    refine imp_congr_ctx hsame fun hless => ?_
    rw [← (hpass hlt).any_iff]
    have hremoved := hevicts.getTotalSize
    have hleft : 0 < freeableTotal locked d' := by
      have := hevicts.freeableTotal
      omega
    simp [Stalled, exists_evictable hleft]
  · have := hevicts.getTotalSize
    have := hevicts.freeableTotal
    have hall : freeableTotal locked d =
        freeable locked d ((leastRecent d).take (batchStart d n)) := by
      rw [List.take_of_length_le hge, freeableTotal_leastRecent]
    have := hend hge
    refine iff_of_true (fun _ => ?_) fun _ => ?_
    · omega
    · omega

/-! ## When every row can be evicted -/

/-- Every row can be evicted. -/
def AllEvictable (locked : String → Bool) (d : CacheDisk) : Prop :=
  ∀ h entry, d.entries.get? h = some entry → evictable locked d h entry = true

/-- The sizes of the rows in a list. -/
def sizes (rows : List (String × CacheEntry)) : ℕ := (rows.map fun row => row.2.sizeBytes).sum

/-- The rows that are gone are the fewest of the rows used least recently that are large enough
together, or all rows if these are too few. -/
def RemovesPrefix (target : ℤ) (d d' : CacheDisk) : Prop :=
  ∃ n ≤ (leastRecent d).length,
    (∀ h, d.entries.get? h ≠ none ∧ d'.entries.get? h = none ↔
      h ∈ ((leastRecent d).take n).map Prod.fst) ∧
    (∀ j < n, (sizes ((leastRecent d).take j) : ℤ) < target) ∧
    (n < (leastRecent d).length → target ≤ sizes ((leastRecent d).take n))

theorem Evicts.allEvictable (he : Evicts locked d d') (hall : AllEvictable locked d) :
    AllEvictable locked d' := by
  intro h entry' hentry'
  obtain ⟨entry, hentry, -, hstate, hfile⟩ := he.kept h entry' hentry'
  rw [← evictable_eq hstate hfile]
  exact hall h entry hentry

theorem freeable_of_allEvictable (hall : AllEvictable locked d)
    (hrows : ∀ row ∈ rows, d.entries.get? row.1 = some row.2) :
    freeable locked d rows = sizes rows := by
  refine congrArg List.sum (List.map_congr_left fun row hrow => ?_)
  rw [if_pos (hall _ _ (hrows row hrow))]

/-- The rows used least recently are evicted from the front of their order. -/
theorem leastRecent_foldl (hall : AllEvictable locked d) (n : ℕ) :
    leastRecent (((leastRecent d).take n).foldl (evictRow cfg locked) d) =
      (leastRecent d).drop n := by
  induction n generalizing d with
  | zero => rfl
  | succ n ih =>
    cases hrows : leastRecent d with
    | nil => simpa using hrows
    | cons row rows =>
      have hrow : d.entries.get? row.1 = some row.2 := by
        apply mem_leastRecent.mp
        simp [hrows]
      obtain ⟨hmay, hdel⟩ := Bool.and_eq_true_iff.mp (hall _ _ hrow)
      have hnext : leastRecent (evictRow cfg locked d row) = rows := by
        rw [evictRow, if_pos hmay, if_pos hdel]
        exact leastRecent_dropRow hrows
      have hrest := ih ((evicts_evictRow cfg locked hrow).allEvictable hall)
      rw [hnext] at hrest
      simpa using hrest

/-- **If every row can be evicted, the fewest are that free enough.** -/
theorem run_evictBatches_of_allEvictable {target : ℤ} {fuel freed freed' : ℕ} (hd : Lowercase d)
    (hfuel : d.entries.keys.length < fuel) (hall : AllEvictable locked d)
    (hrun : (evictBatches cfg locked target fuel freed).run d = (.ok freed', d')) :
    ∃ n ≤ (leastRecent d).length, leastRecent d' = (leastRecent d).drop n ∧
      (∀ j < n, (freed + sizes ((leastRecent d).take j) : ℤ) < target) ∧
      (n < (leastRecent d).length → target ≤ (freed + sizes ((leastRecent d).take n) : ℤ)) := by
  induction fuel generalizing d freed with
  | zero => omega
  | succ fuel ih =>
    obtain ⟨m, hm, hstep, hless, henough⟩ :=
      run_evictBatches cfg locked target fuel freed hd
    have hlength : (getLruCandidates d 100).length = min 100 (leastRecent d).length := by
      rw [getLruCandidates_eq, List.length_take]
    have hbatch : ∀ j ≤ m, batchRows d j = (leastRecent d).take j := by
      intro j hj
      rw [batchRows, getLruCandidates_eq, List.take_take, min_eq_left (by omega)]
    have hfree : ∀ j ≤ m, freeable locked d (batchRows d j) = sizes ((leastRecent d).take j) := by
      intro j hj
      rw [freeable_of_allEvictable hall (fun _ => mem_batchRows), hbatch j hj]
    have hrest : leastRecent (afterRows cfg locked d m) = (leastRecent d).drop m := by
      rw [afterRows, hbatch m le_rfl, leastRecent_foldl hall]
    rw [hrun] at hstep
    split_ifs at hstep with hany
    · have hevicts := (afterRows_spec cfg locked d m).1
      have hfewer := length_afterRows_lt cfg hany
      obtain ⟨n, hn, hafter, hless', henough'⟩ := ih (hevicts.lowercase hd) (by omega)
        (hevicts.allEvictable hall) hstep.symm
      have htake : ∀ j, sizes ((leastRecent d).take (m + j)) =
          sizes ((leastRecent d).take m) + sizes (((leastRecent d).drop m).take j) := by
        intro j
        simp [sizes, List.take_add]
      rw [hrest] at hn hafter hless' henough'
      rw [List.length_drop] at hn henough'
      rw [hfree m le_rfl] at hless' henough'
      refine ⟨m + n, by omega, ?_, fun j hj => ?_, fun hlt => ?_⟩
      · rw [hafter, List.drop_drop]
      · by_cases hjm : j < m
        · rw [← hfree j hjm.le]
          exact hless j hjm
        · obtain ⟨i, rfl⟩ := Nat.exists_eq_add_of_le (not_lt.mp hjm)
          have := hless' i (by omega)
          rw [htake]
          push_cast at this ⊢
          omega
      · have := henough' (by omega)
        rw [htake]
        push_cast at this ⊢
        omega
    · -- a batch that evicts nothing is empty
      have hzero : batchRows d m = [] := by
        cases hrows : batchRows d m with
        | nil => rfl
        | cons row rows =>
          have hmem : row ∈ batchRows d m := by simp [hrows]
          exact absurd (List.any_eq_true.mpr ⟨row, hmem, hall _ _ (mem_batchRows hmem)⟩) hany
      have hm0 : m = 0 := by
        have := congrArg List.length hzero
        rw [batchRows, List.length_take, List.length_nil] at this
        omega
      subst hm0
      obtain ⟨-, rfl⟩ := Prod.mk.inj hstep
      refine ⟨0, Nat.zero_le _, hrest, by simp, fun hlt => ?_⟩
      have := henough (by omega)
      rwa [hfree 0 le_rfl] at this

/-- What is left of the order of use says which rows are gone. -/
theorem removed_iff {n : ℕ} (hrest : leastRecent d' = (leastRecent d).drop n) :
    d.entries.get? h ≠ none ∧ d'.entries.get? h = none ↔
      h ∈ ((leastRecent d).take n).map Prod.fst := by
  have hkeys : ∀ d : CacheDisk, d.entries.get? h ≠ none ↔ h ∈ (leastRecent d).map Prod.fst := by
    intro d
    rw [Option.ne_none_iff_exists', List.mem_map]
    constructor
    · rintro ⟨entry, hentry⟩
      exact ⟨(h, entry), mem_leastRecent.mpr hentry, rfl⟩
    · rintro ⟨row, hrow, rfl⟩
      exact ⟨row.2, mem_leastRecent.mp hrow⟩
  have hsplit : (leastRecent d).map Prod.fst =
      ((leastRecent d).take n).map Prod.fst ++ (leastRecent d').map Prod.fst := by
    rw [hrest, ← List.map_append, List.take_append_drop]
  have hdisjoint := nodup_leastRecent d
  rw [hsplit, List.nodup_append] at hdisjoint
  have hgone : d'.entries.get? h = none ↔ h ∉ (leastRecent d').map Prod.fst := by
    rw [← hkeys d', not_not]
  rw [hkeys, hsplit, List.mem_append, hgone]
  constructor
  · rintro ⟨hmem | hmem, hnot⟩
    · exact hmem
    · exact absurd hmem hnot
  · exact fun hmem => ⟨.inl hmem, fun hmem' => hdisjoint.2.2 h hmem h hmem' rfl⟩

/-! ## Eviction frees enough -/

/-- An eviction ends, and would with more batches too; it frees the sizes of the rows that it
removes, removes no row whose file is left, and frees enough whenever that much can be freed. If
every row can be evicted, it removes the fewest of the rows used least recently that are enough. -/
structure FreesEnough (cfg : CacheConfig) (locked : String → Bool) (target : ℤ) (d : CacheDisk) :
    Prop where
  terminates : ∀ fuel, d.entries.entries.length < fuel →
    (evictBatches cfg locked target fuel 0).run d =
      (evictBatches cfg locked target (d.entries.entries.length + 1) 0).run d
  frees : ∃ freed d', (evictToFree cfg locked target).run d = (.ok freed, d') ∧
    freed = removedBytes d d' ∧
    (∀ h, d.entries.get? h ≠ none → d'.entries.get? h = none → d'.objects.get? h = none) ∧
    (target ≤ freeableTotal locked d → target ≤ freed) ∧
    (AllEvictable locked d → RemovesPrefix target d d')

theorem removedBytes_self (d : CacheDisk) : removedBytes d d = 0 := by
  apply Dict.total_eq_zero
  intro h entry hentry
  simp [hentry]

theorem run_evictToFree {target : ℤ} (htarget : 0 < target) :
    (evictToFree cfg locked target).run d =
      (evictBatches cfg locked target (d.entries.entries.length + 1) 0).run d := by
  rw [evictToFree, if_neg (by omega), run_read_bind]

/-- More batches than rows make no difference. -/
theorem run_evictBatches_fuel (target : ℤ) (hd : Lowercase d) {fuel : ℕ}
    (hfuel : d.entries.entries.length < fuel) :
    (evictBatches cfg locked target fuel 0).run d =
      (evictBatches cfg locked target (d.entries.entries.length + 1) 0).run d := by
  have hkeys : d.entries.keys.length = d.entries.entries.length := List.length_map _
  induction fuel with
  | zero => omega
  | succ fuel ih =>
    rcases Nat.lt_succ_iff_lt_or_eq.mp hfuel with hlt | rfl
    · rw [← ih hlt]
      have hsucc : evictBatches cfg locked target (fuel + 1) 0 d =
          evictBatches cfg locked target fuel 0 d := evictBatches_succ target fuel 0 hd (by omega)
      exact congrArg (fun o => (o.result, o.last)) hsucc
    · rfl

theorem not_freesEnough_of_stalled {target : ℤ} {n : ℕ} (hd : Lowercase d)
    (hfree : target ≤ freeableTotal locked d)
    (hn : (getTotalSize d : ℤ) - getTotalSize ((afterBatch cfg locked)^[n] d) < target)
    (hstalled : Stalled locked ((afterBatch cfg locked)^[n] d)) :
    ¬FreesEnough cfg locked target d := by
  rintro ⟨-, freed, d', hrun, -, -, henough, -⟩
  have hle := getTotalSize_iterate_le cfg locked d n
  rw [run_evictToFree (by omega)] at hrun
  have hless := run_evictBatches_of_stalled hd (by simpa using hn) hstalled hrun
  have := henough hfree
  omega

/-- Eviction frees enough exactly if it does not stall. -/
theorem freesEnough_iff_keepsGoing (cfg : CacheConfig) (locked : String → Bool) (target : ℤ)
    (hd : Lowercase d) : FreesEnough cfg locked target d ↔
      (target ≤ freeableTotal locked d → KeepsGoing cfg locked target d) := by
  have hfuel : d.entries.keys.length < d.entries.entries.length + 1 := by
    simp [Dict.keys]
  rcases le_or_gt target 0 with htarget | htarget
  · have hrun : (evictToFree cfg locked target).run d = (.ok 0, d) := by
      rw [evictToFree, if_pos htarget, run_pure]
    refine iff_of_true ⟨fun _ => run_evictBatches_fuel target hd, 0, d, hrun,
      (removedBytes_self d).symm, fun h hsome hnone => absurd hnone hsome, fun _ => by simpa,
      fun _ => ⟨0, Nat.zero_le _, ?_, by simp, fun _ => by simpa [sizes]⟩⟩ fun _ n hn => ?_
    · simp
    · have := getTotalSize_iterate_le cfg locked d n
      omega
  · obtain ⟨freed, d', hrun, hevicts, hsize⟩ := run_evictBatches_ok cfg locked
      target (d.entries.entries.length + 1) 0 hd
    have hrun' : (evictToFree cfg locked target).run d = (.ok freed, d') :=
      (run_evictToFree htarget).trans hrun
    have hremoved := hevicts.getTotalSize
    constructor
    · exact fun hfrees hfree n hn hstalled => not_freesEnough_of_stalled hd hfree hn hstalled hfrees
    · intro hgoing
      refine ⟨fun _ => run_evictBatches_fuel target hd, freed, d', hrun', by omega,
        fun h hsome hnone => ?_, fun hfree => ?_, fun hall => ?_⟩
      · obtain ⟨entry, hentry⟩ := Option.ne_none_iff_exists'.mp hsome
        exact (hevicts.gone h entry hentry hnone).2
      · exact run_evictBatches_of_keepsGoing hd hfuel (by simpa using hfree)
          (by simpa using hgoing hfree) hrun
      · obtain ⟨n, hn, hrest, hless, henough⟩ :=
          run_evictBatches_of_allEvictable hd hfuel hall hrun
        exact ⟨n, hn, fun h => removed_iff hrest, by simpa using hless, by simpa using henough⟩

/-- Fewer rows than a batch holds cannot be evicted. -/
def FewStuck (locked : String → Bool) (d : CacheDisk) : Prop :=
  (d.entries.entries.filter fun row => !evictable locked d row.1 row.2).length < 100

theorem keepsGoing_of_fewStuck (cfg : CacheConfig) (target : ℤ) (hfew : FewStuck locked d) :
    KeepsGoing cfg locked target d := by
  rintro n - ⟨⟨h, entry, hentry, hev⟩, hstuck⟩
  have hevicts := evicts_iterate cfg locked d n
  set d' := (afterBatch cfg locked)^[n] d
  rw [getLruCandidates_eq] at hstuck
  -- a batch that does not hold the row that can be evicted is full
  have hfull : 100 ≤ (leastRecent d').length := by
    by_contra hlt
    rw [List.take_of_length_le (by omega)] at hstuck
    simp [hstuck (h, entry) (mem_leastRecent.mpr hentry)] at hev
  have hsub : ((leastRecent d').take 100).map Prod.fst ⊆
      (d.entries.entries.filter fun row => !evictable locked d row.1 row.2).map Prod.fst := by
    intro h hh
    obtain ⟨row, hrow, rfl⟩ := List.mem_map.mp hh
    obtain ⟨entry, hentry, -, hstate, hfile⟩ :=
      hevicts.kept _ _ (mem_leastRecent.mp (List.mem_of_mem_take hrow))
    refine List.mem_map.mpr ⟨(row.1, entry), List.mem_filter.mpr ⟨Dict.mem_entries.mpr hentry, ?_⟩,
      rfl⟩
    rw [Evicts.evictable_eq hstate hfile, hstuck row hrow, Bool.not_false]
  have hle := (List.subperm_of_subset ((nodup_leastRecent d').sublist
    ((List.take_sublist 100 _).map _)) hsub).length_le
  rw [List.length_map, List.length_map, List.length_take] at hle
  unfold FewStuck at hfew
  omega

/-- **Eviction frees enough exactly if the rows that are new in each batch help.** Rows that may not
be evicted stay in front when a batch is over, and rows whose files are locked go to the end, as
long as the clock reads later than the accesses that are noted. Whatever it reads, eviction frees
enough when less than a batch cannot be evicted. -/
theorem evictToFree_frees_iff (cfg : CacheConfig) (locked : String → Bool) (target : ℤ)
    (d : CacheDisk) (hd : Lowercase d) :
    (ReadsLater cfg d → (FreesEnough cfg locked target d ↔
      (target ≤ freeableTotal locked d → NewRowsHelp locked target d))) ∧
      (FewStuck locked d → FreesEnough cfg locked target d) := by
  rw [freesEnough_iff_keepsGoing cfg locked target hd]
  exact ⟨fun hlater => imp_congr_right fun hfree => keepsGoing_iff hlater hfree,
    fun hfew _ => keepsGoing_of_fewStuck cfg target hfew⟩

/-! ### Some disks -/

/-- The digits of a hash by its number. -/
def hashDigits (i : ℕ) : List Char :=
  Nat.digitChar (i / 16) :: Nat.digitChar (i % 16) :: List.replicate 62 '0'

theorem lowercase_hashDigits {i : ℕ} (hi : i < 101) :
    lowerText (String.ofList (hashDigits i)) = String.ofList (hashDigits i) := by
  have hlower : ∀ i ∈ List.range 101, lower (hashDigits i) = hashDigits i := by decide +kernel
  rw [lowerText, String.toList_ofList, hlower i (List.mem_range.mpr hi)]

/-- A disk with a corrupted row, a row whose file is there, and one without a file. -/
def mixedDisk : CacheDisk where
  objects := ⟨[(String.ofList (hashDigits 1), [1])], by decide⟩
  entries := ⟨(List.range 3).map fun i => (String.ofList (hashDigits i),
    { sizeBytes := 1, state := if i = 0 then .corrupted else .valid, createdAt := i,
      lastAccessedAt := i }), by decide +kernel⟩
  readings := 3

theorem row_mixedDisk {h : String} {entry : CacheEntry}
    (hentry : mixedDisk.entries.get? h = some entry) :
    ∃ i < 3, h = String.ofList (hashDigits i) ∧ entry.lastAccessedAt = i := by
  obtain ⟨i, hi, hrow⟩ := List.mem_map.mp (Dict.mem_entries.mpr hentry)
  obtain ⟨rfl, rfl⟩ := Prod.mk.inj hrow
  exact ⟨i, List.mem_range.mp hi, rfl, rfl⟩

theorem lowercase_mixedDisk : Lowercase mixedDisk := by
  intro h hh
  obtain ⟨entry, hentry⟩ := Dict.mem_keys.mp hh
  obtain ⟨i, hi, rfl, -⟩ := row_mixedDisk hentry
  exact lowercase_hashDigits (by omega)

/-- The row without a file is evicted though the file of an older one is locked. -/
theorem evictToFree_frees_mixedDisk : Lowercase mixedDisk ∧ ReadsLater sampleConfig mixedDisk ∧
    FreesEnough sampleConfig (fun _ => true) 1 mixedDisk ∧
      NewRowsHelp (fun _ => true) 1 mixedDisk := by
  have hlater : ReadsLater sampleConfig mixedDisk := by
    intro h entry hentry n hn
    obtain ⟨i, hi, -, htime⟩ := row_mixedDisk hentry
    rw [htime]
    exact Nat.cast_lt.mpr (hi.trans_le hn)
  obtain ⟨hiff, hfew⟩ := evictToFree_frees_iff sampleConfig (fun _ => true) 1 mixedDisk
    lowercase_mixedDisk
  have hfrees := hfew (lt_of_le_of_lt (List.length_filter_le _ _) (by decide +kernel))
  exact ⟨lowercase_mixedDisk, hlater, hfrees, (hiff hlater).mp hfrees (by decide +kernel)⟩

/-- Rows of which the oldest 100 are corrupted. -/
def crowdedRows : List (String × CacheEntry) :=
  (List.range 101).map fun i => (String.ofList (hashDigits i),
    { sizeBytes := 1, state := if i < 100 then .corrupted else .valid, createdAt := i,
      lastAccessedAt := i })

theorem nodup_crowdedRows : (crowdedRows.map Prod.fst).Nodup := by
  have hdigits : ((List.range 101).map hashDigits).Nodup := by decide +kernel
  have hkeys : crowdedRows.map Prod.fst = ((List.range 101).map hashDigits).map String.ofList := by
    simp [crowdedRows]
  rw [hkeys]
  exact hdigits.map fun _ _ => String.ofList_injective

/-- A disk with 100 corrupted rows and one that is valid. -/
def crowdedDisk : CacheDisk where
  entries := ⟨crowdedRows, nodup_crowdedRows⟩

theorem lowercase_crowdedDisk : Lowercase crowdedDisk := by
  intro h hh
  obtain ⟨row, hrow, rfl⟩ := List.mem_map.mp hh
  obtain ⟨i, hi, rfl⟩ := List.mem_map.mp hrow
  exact lowercase_hashDigits (List.mem_range.mp hi)

/-- One byte could be freed, and none is. -/
theorem crowdedDisk_not_freesEnough :
    ¬FreesEnough sampleConfig (fun _ => false) 1 crowdedDisk := by
  let entry : CacheEntry := { sizeBytes := 1, createdAt := 100, lastAccessedAt := 100 }
  have hentry : crowdedDisk.entries.get? (String.ofList (hashDigits 100)) = some entry :=
    Dict.mem_entries.mp (List.mem_map.mpr ⟨100, by simp, rfl⟩)
  have hev : evictable (fun _ => false) crowdedDisk (String.ofList (hashDigits 100)) entry =
      true := by
    decide +kernel
  have hold : ((getLruCandidates crowdedDisk 100).all fun row => row.2.state = .corrupted) =
      true := by
    decide +kernel
  apply not_freesEnough_of_stalled (n := 0) lowercase_crowdedDisk
  · rw [freeableTotal_eq, Dict.total_erase hentry, hev, if_pos rfl]
    have hsize : entry.sizeBytes = 1 := rfl
    omega
  · simp
  · refine ⟨⟨_, entry, hentry, hev⟩, fun row hrow => ?_⟩
    have hstate : row.2.state = .corrupted := by
      simpa using List.all_eq_true.mp hold row hrow
    simp [evictable, hstate, mayEvict, validTransitions]

end Aidars.Cache
