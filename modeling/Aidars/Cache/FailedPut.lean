import Aidars.Cache.Quota

/-!
# Operations that fail to store an object

An operation that raises adds no row and no object, and removes its staging file. Room is made
before the object is written, so that rows may be gone although nothing took their place:
`failed_put` says that this is all that changes, and when it does.
-/

namespace Aidars.Cache

open Prog

variable {cfg : CacheConfig} {locked : String → Bool} {fails : IoCall → Bool} {d d' : CacheDisk}
  {h tmp : String} {rows : List (String × CacheEntry)}

/-! ## Evictions that change something -/

/-- To make room for an object rows are evicted, and one of the first may be. -/
def Disturbs (cfg : CacheConfig) (d : CacheDisk) (size : ℕ) : Prop :=
  ∃ quota ∈ cfg.maxCacheSizeBytes, Crowded d quota size ∧
    ∃ row ∈ getLruCandidates d 100, mayEvict row.2.state = true

/-- The row of a hash is gone, or has been accessed. -/
def Moved (h : String) (count : ℕ) (d : CacheDisk) : Prop :=
  ∀ entry, d.entries.get? h = some entry → count < entry.accessCount

theorem stable_moved (h : String) (count : ℕ) : Stable (Moved h count) where
  eraseObject _ _ hd := hd
  readings _ _ hd := hd
  modifyEntry d h' f hf hd := by
    intro entry hentry
    rw [Dict.get?_modify] at hentry
    split_ifs at hentry with heq
    · obtain ⟨old, hold, rfl⟩ := Option.map_eq_some_iff.mp hentry
      exact (hd old (heq ▸ hold)).trans_le (hf old).2
    · exact hd entry hentry
  eraseEntry d h' hd := by
    intro entry hentry
    rw [Dict.get?_erase] at hentry
    split_ifs at hentry
    exact hd entry hentry

theorem moved_evictRow {row : String × CacheEntry} (hrow : d.entries.get? row.1 = some row.2)
    (hmay : mayEvict row.2.state = true) :
    Moved row.1 row.2.accessCount (evictRow cfg locked d row) := by
  intro entry hentry
  rw [evictRow, if_pos hmay] at hentry
  split_ifs at hentry
  · simp [dropObject, dropRow] at hentry
  · simp only [touchRow, Dict.get?_modify, if_pos, hrow, Option.map_some] at hentry
    obtain rfl := Option.some.inj hentry
    exact Nat.lt_succ_self _

/-- Other candidates leave it so. -/
theorem Moved.candidate {count : ℕ} (hd : Moved h count d) (row : String × CacheEntry) :
    Moved h count (evictRow cfg locked d row) := by
  have hI := stable_moved h count
  unfold evictRow
  split_ifs
  · exact hI.eraseObject _ _ (hI.eraseEntry _ _ hd)
  · exact hI.readings _ _ (hI.modifyEntry _ _ _ (mild_touched _) hd)
  · exact hd

theorem Moved.candidates {count : ℕ} (hd : Moved h count d) (rows : List (String × CacheEntry)) :
    Moved h count (rows.foldl (evictRow cfg locked) d) := by
  induction rows generalizing d with
  | nil => exact hd
  | cons row rows ih => exact ih (hd.candidate row)

theorem moved_foldl {row : String × CacheEntry} (hmem : row ∈ rows)
    (hrows : ∀ row ∈ rows, d.entries.get? row.1 = some row.2) (hnodup : (rows.map Prod.fst).Nodup)
    (hmay : mayEvict row.2.state = true) :
    Moved row.1 row.2.accessCount (rows.foldl (evictRow cfg locked) d) := by
  induction rows generalizing d with
  | nil => simp at hmem
  | cons r rows ih =>
    rcases List.mem_cons.mp hmem with rfl | hmem
    · exact (moved_evictRow (hrows _ List.mem_cons_self) hmay).candidates rows
    · exact ih hmem (rows_evictRow cfg locked hrows hnodup).2 (List.nodup_cons.mp hnodup).2

theorem foldl_evictRow_of_not_mayEvict (hrows : ∀ row ∈ rows, mayEvict row.2.state = false) :
    rows.foldl (evictRow cfg locked) d = d := by
  induction rows with
  | nil => rfl
  | cons row rows ih =>
    obtain ⟨hrow, hrest⟩ := List.forall_mem_cons.mp hrows
    rw [List.foldl_cons, evictRow, if_neg (by simp [hrow])]
    exact ih hrest

theorem moved_evictToFree {target : ℤ} (htarget : 0 < target) (hd : Lowercase d)
    {row : String × CacheEntry} (hrow : row ∈ getLruCandidates d 100)
    (hmay : mayEvict row.2.state = true) : ∃ row ∈ getLruCandidates d 100,
      Moved row.1 row.2.accessCount ((evictToFree cfg locked target).run d).2 := by
  obtain ⟨n, hn, hrun, -, henough⟩ :=
    run_evictBatches cfg locked target d.entries.entries.length 0 hd
  -- the batch goes on at least to a row that may be evicted
  have hreached : ∃ row ∈ batchRows d n, mayEvict row.2.state = true := by
    by_contra hnone
    push Not at hnone
    have hzero : freeable locked d (batchRows d n) = 0 :=
      freeable_eq_zero fun row hrow => by simp [evictable, hnone row hrow]
    have hwhole : batchRows d n = getLruCandidates d 100 := by
      apply batchRows_of_length_le
      by_contra hlt
      have := henough (by omega)
      omega
    rw [hwhole] at hnone
    exact hnone row hrow hmay
  obtain ⟨row, hrow, hmay⟩ := hreached
  have hmoved : Moved row.1 row.2.accessCount (afterRows cfg locked d n) :=
    moved_foldl hrow (fun _ => mem_batchRows) (nodup_batchRows d n) hmay
  refine ⟨row, List.mem_of_mem_take hrow, ?_⟩
  rw [run_evictToFree htarget, hrun]
  split_ifs
  · exact ((stable_moved _ _).keeps_evictBatches _ _ _).leaves hmoved (.inr (.inr rfl))
  · exact hmoved

theorem evictToFree_of_not_mayEvict {target : ℤ} (htarget : 0 < target) (hd : Lowercase d)
    (hnone : ∀ row ∈ getLruCandidates d 100, mayEvict row.2.state = false) :
    ((evictToFree cfg locked target).run d).2 = d := by
  obtain ⟨n, -, hrun, -⟩ := run_evictBatches cfg locked target d.entries.entries.length 0 hd
  have hnone' : ∀ row ∈ batchRows d n, mayEvict row.2.state = false :=
    fun row hrow => hnone row (List.mem_of_mem_take hrow)
  rw [run_evictToFree htarget, hrun, if_neg]
  · exact foldl_evictRow_of_not_mayEvict hnone'
  · simpa [evictable] using fun h entry hmem hmay => absurd hmay (by simp [hnone' (h, entry) hmem])

/-- **What making room changes.** -/
theorem enforceQuota_same_iff (cfg : CacheConfig) (locked : String → Bool) (hd : Lowercase d)
    (size : ℕ) :
    (((enforceQuota cfg locked size).run d).2.entries = d.entries ∧
      ((enforceQuota cfg locked size).run d).2.objects = d.objects) ↔ ¬Disturbs cfg d size := by
  rcases run_enforceQuota cfg locked hd size with ⟨hroom, hrun⟩ | ⟨quota, hquota, -, hlarge, hrun⟩ |
    ⟨quota, hquota, hcrowded, freed, d', hevict, -, -, hrun⟩
  · rw [hrun]
    refine iff_of_true ⟨rfl, rfl⟩ ?_
    rintro ⟨quota, hquota, ⟨hpos, -, hfull⟩, -⟩
    have := hroom quota hquota hpos
    omega
  · rw [hrun]
    refine iff_of_true ⟨rfl, rfl⟩ ?_
    rintro ⟨quota', hquota', ⟨-, hfits, -⟩, -⟩
    obtain rfl := Option.some.inj (hquota.symm.trans hquota')
    omega
  · have htarget : 0 < (getTotalSize d + size - quota : ℤ) := by
      have := hcrowded.2.2
      omega
    rw [hrun]
    by_cases hmay : ∃ row ∈ getLruCandidates d 100, mayEvict row.2.state = true
    · refine iff_of_false ?_ (not_not.mpr ⟨quota, hquota, hcrowded, hmay⟩)
      rintro ⟨hentries, -⟩
      obtain ⟨row, hrow, hmay⟩ := hmay
      obtain ⟨row', hrow', hmoved⟩ : ∃ row ∈ getLruCandidates d 100, Moved row.1 row.2.accessCount
        ((evictToFree cfg locked (getTotalSize d + size - quota)).run d).2 :=
          moved_evictToFree htarget hd hrow hmay
      rw [hevict] at hmoved
      have hless := hmoved row'.2 (by rw [hentries]; exact mem_getLruCandidates hrow')
      exact lt_irrefl _ hless
    · have hsame : ((evictToFree cfg locked (getTotalSize d + size - quota)).run d).2 = d :=
        evictToFree_of_not_mayEvict htarget hd (by simpa using hmay)
      rw [hevict] at hsame
      obtain rfl : d' = d := hsame
      refine iff_of_true ⟨rfl, rfl⟩ ?_
      rintro ⟨-, -, -, hmay'⟩
      exact hmay hmay'

/-! ## What a failure leaves -/

/-- What an operation that raises leaves: rows may have been evicted, with their files, and nothing
was added; the staging files are as before, unless one could not be removed. The rows and the
objects are the same exactly if they were not disturbed. -/
structure LeftBy (locked : String → Bool) (fails : IoCall → Bool) (disturbed : Prop)
    (d d' : CacheDisk) : Prop where
  evicts : Evicts locked d d'
  staging : fails .unlink = false → d'.staging = d.staging
  same_iff : d'.entries = d.entries ∧ d'.objects = d.objects ↔ ¬disturbed

variable {disturbed : Prop}

theorem leftBy_self (hnot : ¬disturbed) : LeftBy locked fails disturbed d d :=
  ⟨.refl _ _, fun _ => rfl, iff_of_true ⟨rfl, rfl⟩ hnot⟩

theorem LeftBy.leave (hd : LeftBy locked fails disturbed d d') (tmp : String) (part : Bytes) :
    LeftBy locked fails disturbed d (leave fails tmp part d') where
  evicts := by
    obtain ⟨hkept, hgone, hobjects⟩ := hd.evicts
    exact ⟨by simpa using hkept, by simpa using hgone, by simpa using hobjects⟩
  staging hunlink := by
    rw [Cache.leave, if_neg (by simp [hunlink])]
    exact hd.staging hunlink
  same_iff := by
    rw [entries_leave, objects_leave]
    exact hd.same_iff

theorem leftBy_enforceQuota (cfg : CacheConfig) (fails : IoCall → Bool) (hd : Lowercase d)
    {size : ℕ} {r : Except CacheError ℕ}
    (hrun : (enforceQuota cfg locked size).run d = (r, d')) :
    LeftBy locked fails (Disturbs cfg d size) d d' := by
  have hevicts := (enforceQuota_spec cfg locked hd size).1
  have hsame := enforceQuota_same_iff cfg locked hd size
  have hstaging : ((enforceQuota cfg locked size).run d).2.staging = d.staging :=
    (ignoresStaging_enforceQuota size).staging_eq d
  rw [hrun] at hevicts hsame hstaging
  exact ⟨hevicts, fun _ => hstaging, hsame⟩

/-- `put_bytes` gets as far as making room. -/
def BytesMakeRoom (cfg : CacheConfig) (d : CacheDisk) (data : Bytes) (sha256 : Option String) :
    Prop :=
  hashError (cfg.sha256 data) sha256 = none ∧ isCacheValid d (cfg.sha256 data) = .ok false

/-- An operation on a file or a stream gets as far as making room. -/
def StreamMakesRoom (cfg : CacheConfig) (fails : IoCall → Bool) (d : CacheDisk)
    (stream : List Bytes) (sha256 : Option String) (sizeBytes : Option ℕ) (maxBytes : Option ℤ)
    (unopened : Bool) : Prop :=
  knownValid d sha256 = .ok false ∧ unopened = false ∧
    prepareError cfg fails stream sha256 sizeBytes maxBytes = none ∧
    isCacheValid d (cfg.sha256 (content stream)) = .ok false

theorem LeftBy.congr {disturbed' : Prop} (hd : LeftBy locked fails disturbed d d')
    (hiff : disturbed ↔ disturbed') : LeftBy locked fails disturbed' d d' :=
  ⟨hd.evicts, hd.staging, hd.same_iff.trans (not_congr hiff)⟩

/-- An object that was written gets its row, unless that is refused. -/
theorem storeOutcome_ne {e : CacheError} (he : e ≠ .rowRefused) {entry : Option CacheEntry}
    {data : Bytes} {d₁ : CacheDisk} : storeOutcome cfg fails entry data d₁ ≠ (.error e, d') := by
  unfold storeOutcome
  split_ifs
  · rintro ⟨⟩
    exact he rfl
  · rintro ⟨⟩

theorem leftBy_putBytesOutcome {data part : Bytes} {sha256 : Option String}
    {entry : Option CacheEntry} (hd : Lowercase d) {e : CacheError} (he : e ≠ .rowRefused)
    (hrun : putBytesOutcome cfg locked fails tmp data sha256 part entry d = (.error e, d')) :
    LeftBy locked fails (BytesMakeRoom cfg d data sha256 ∧ Disturbs cfg d data.length) d d' := by
  unfold putBytesOutcome at hrun
  dsimp only at hrun
  cases hhash : hashError (cfg.sha256 data) sha256 with
  | some e =>
    rw [hhash] at hrun
    obtain ⟨-, rfl⟩ := Prod.mk.inj hrun
    exact leftBy_self fun h => by simp [h.1.1] at hhash
  | none =>
    rw [hhash] at hrun
    cases hvalid : isCacheValid d (cfg.sha256 data) with
    | error e =>
      rw [hvalid] at hrun
      obtain ⟨-, rfl⟩ := Prod.mk.inj hrun
      exact leftBy_self fun h => by simp [h.1.2] at hvalid
    | ok valid =>
      rw [hvalid] at hrun
      cases valid with
      | true => cases hrun
      | false =>
        dsimp only at hrun
        have hreached : Disturbs cfg d data.length ↔
            BytesMakeRoom cfg d data sha256 ∧ Disturbs cfg d data.length :=
          (and_iff_right ⟨hhash, hvalid⟩).symm
        rcases hr : (enforceQuota cfg locked data.length).run d with ⟨e | freed, d₁⟩
        · have hleft := leftBy_enforceQuota cfg fails hd hr
          rw [hr] at hrun
          obtain ⟨-, rfl⟩ := Prod.mk.inj hrun
          exact hleft.congr hreached
        · have hleft := (leftBy_enforceQuota cfg fails hd hr).congr hreached
          rw [hr] at hrun
          dsimp only at hrun
          split_ifs at hrun
          · obtain ⟨-, rfl⟩ := Prod.mk.inj hrun
            exact hleft
          · cases hprepare : prepareError cfg (inMemory fails) (data.toChunks defaultChunkSize)
                sha256 (some data.length) none with
            | some e =>
              rw [hprepare] at hrun
              obtain ⟨-, rfl⟩ := Prod.mk.inj hrun
              exact hleft.leave tmp part
            | none =>
              rw [hprepare] at hrun
              unfold commitOutcome at hrun
              cases hcommit : commitError cfg fails data with
              | some e =>
                rw [hcommit] at hrun
                obtain ⟨-, rfl⟩ := Prod.mk.inj hrun
                exact hleft.leave tmp part
              | none =>
                rw [hcommit] at hrun
                exact absurd hrun (storeOutcome_ne he)

theorem leftBy_ingestOutcome {stream : List Bytes} {sha256 : Option String}
    {sizeBytes : Option ℕ} {maxBytes : Option ℤ} {unopened : Bool} {part : Bytes}
    {entry : Option CacheEntry} (hd : Lowercase d) {e : CacheError} (he : e ≠ .rowRefused)
    (hrun : ingestOutcome cfg locked fails tmp stream sha256 sizeBytes maxBytes unopened part entry
      d = (.error e, d')) :
    LeftBy locked fails
      (StreamMakesRoom cfg fails d stream sha256 sizeBytes maxBytes unopened ∧
        Disturbs cfg d (content stream).length) d d' := by
  unfold ingestOutcome at hrun
  dsimp only at hrun
  cases hknown : knownValid d sha256 with
  | error e =>
    rw [hknown] at hrun
    obtain ⟨-, rfl⟩ := Prod.mk.inj hrun
    exact leftBy_self fun h => by simp [h.1.1] at hknown
  | ok known =>
    rw [hknown] at hrun
    cases known with
    | true => cases hrun
    | false =>
      dsimp only at hrun
      cases hunopened : unopened with
      | true =>
        rw [if_pos hunopened] at hrun
        obtain ⟨-, rfl⟩ := Prod.mk.inj hrun
        exact leftBy_self fun h => by simpa using h.1.2.1
      | false =>
        rw [if_neg (by simp [hunopened])] at hrun
        cases hprepare : prepareError cfg fails stream sha256 sizeBytes maxBytes with
        | some e =>
          rw [hprepare] at hrun
          obtain ⟨-, rfl⟩ := Prod.mk.inj hrun
          exact (leftBy_self fun h => by simp [h.1.2.2.1] at hprepare).leave tmp part
        | none =>
          rw [hprepare] at hrun
          cases hvalid : isCacheValid d (cfg.sha256 (content stream)) with
          | error e =>
            rw [hvalid] at hrun
            obtain ⟨-, rfl⟩ := Prod.mk.inj hrun
            exact (leftBy_self fun h => by simp [h.1.2.2.2] at hvalid).leave tmp part
          | ok valid =>
            rw [hvalid] at hrun
            cases valid with
            | true => cases hrun
            | false =>
              dsimp only at hrun
              have hreached : Disturbs cfg d (content stream).length ↔
                  StreamMakesRoom cfg fails d stream sha256 sizeBytes maxBytes false ∧
                    Disturbs cfg d (content stream).length :=
                (and_iff_right ⟨hknown, rfl, hprepare, hvalid⟩).symm
              rcases hr : (enforceQuota cfg locked (content stream).length).run d with
                ⟨e | freed, d₁⟩
              · have hleft := (leftBy_enforceQuota cfg fails hd hr).congr hreached
                rw [hr] at hrun
                obtain ⟨-, rfl⟩ := Prod.mk.inj hrun
                exact hleft.leave tmp part
              · have hleft := (leftBy_enforceQuota cfg fails hd hr).congr hreached
                rw [hr] at hrun
                unfold commitOutcome at hrun
                cases hcommit : commitError cfg fails (content stream) with
                | some e =>
                  rw [hcommit] at hrun
                  obtain ⟨-, rfl⟩ := Prod.mk.inj hrun
                  exact hleft.leave tmp part
                | none =>
                  rw [hcommit] at hrun
                  exact absurd hrun (storeOutcome_ne he)

/-- **A failure to store an object leaves nothing new.** An operation that raises, but not because
the index refuses the row of an object that was written, removes its staging file if it can, and
leaves the rows and the objects as they were, but for what it evicted to make room: that is so
exactly if it got as far as making room, had to evict rows for it, and one of the first candidates
may be evicted. -/
theorem failed_put (cfg : CacheConfig) (locked : String → Bool) (fails : IoCall → Bool)
    (d d' : CacheDisk) (hd : Lowercase d) (tmp : String) (hfresh : d.staging.get? tmp = none)
    (e : CacheError) (he : e ≠ .rowRefused) (sha256 : Option String) :
    (∀ data, (putBytes cfg locked fails tmp data sha256).run d = (.error e, d') →
      LeftBy locked fails (BytesMakeRoom cfg d data sha256 ∧ Disturbs cfg d data.length) d d') ∧
    ((putFile cfg locked fails tmp none sha256).run d = (.error e, d') → d' = d) ∧
    (∀ fileSize stream,
      (putFile cfg locked fails tmp (some (fileSize, stream)) sha256).run d = (.error e, d') →
      LeftBy locked fails
        (StreamMakesRoom cfg fails d stream sha256 (some fileSize) none
          (fails .openSource || (fails .ensureDirectories || fails .openStaging)) ∧
        Disturbs cfg d (content stream).length) d d') ∧
    ∀ stream sizeBytes,
      (putStream cfg locked fails tmp stream sizeBytes sha256).run d = (.error e, d') →
      LeftBy locked fails
        (StreamMakesRoom cfg fails d stream sha256 sizeBytes cfg.maxCacheSizeBytes
          (fails .ensureDirectories || fails .openStaging) ∧
        Disturbs cfg d (content stream).length) d d' := by
  refine ⟨fun data hrun => ?_, fun hrun => ?_, fun fileSize stream hrun => ?_,
    fun stream sizeBytes hrun => ?_⟩
  · obtain ⟨part, entry, hput⟩ := run_putBytes cfg locked fails hfresh data sha256
    exact leftBy_putBytesOutcome hd he (hput.symm.trans hrun)
  · exact (Prod.mk.inj hrun).2.symm
  · obtain ⟨part, entry, hput⟩ := run_putFile cfg locked fails hd hfresh fileSize stream sha256
    exact leftBy_ingestOutcome hd he (hput.symm.trans hrun)
  · obtain ⟨part, entry, hput⟩ := run_putStream cfg locked fails hd hfresh stream sizeBytes sha256
    exact leftBy_ingestOutcome hd he (hput.symm.trans hrun)

/-! ### An eviction that is not enough -/

/-- A cache of two bytes. -/
def tightConfig : CacheConfig := { sampleConfig with maxCacheSizeBytes := some 2 }

/-- A row that may be evicted, and one that may not since its file was cut off. -/
def fullDisk : CacheDisk where
  entries := ⟨[(String.ofList (hashDigits 1), ⟨1, .valid, 0, 0, 1⟩),
    (String.ofList (hashDigits 2), ⟨1, .corrupted, 1, 1, 1⟩)], by decide +kernel⟩
  objects := ⟨[(String.ofList (hashDigits 1), [0]), (String.ofList (hashDigits 2), [])],
    by decide +kernel⟩

theorem lowercase_fullDisk : Lowercase fullDisk := by
  unfold Lowercase
  decide +kernel

theorem fullDisk_fails :
    ((putBytes tightConfig (fun _ => false) (fun _ => false) "a.tmp" [1, 2] none).run
      fullDisk).1 = .error (.quotaExceeded 2) := by
  decide +kernel

/-- Two bytes do not fit, and the first row is gone. -/
theorem fullDisk_changed :
    ∃ e d', (putBytes tightConfig (fun _ => false) (fun _ => false) "a.tmp" [1, 2] none).run
      fullDisk = (.error e, d') ∧ d'.entries ≠ fullDisk.entries :=
  ⟨.quotaExceeded 2, _, Prod.ext fullDisk_fails rfl, by decide +kernel⟩

theorem failed_put_fullDisk :
    LeftBy (fun _ => false) (fun _ => false)
      (BytesMakeRoom tightConfig fullDisk [1, 2] none ∧ Disturbs tightConfig fullDisk 2) fullDisk
      ((putBytes tightConfig (fun _ => false) (fun _ => false) "a.tmp" [1, 2] none).run
        fullDisk).2 :=
  (failed_put tightConfig (fun _ => false) (fun _ => false) fullDisk _ lowercase_fullDisk "a.tmp"
    rfl (.quotaExceeded 2) (by simp) none).1 [1, 2] (Prod.ext fullDisk_fails rfl)

end Aidars.Cache
