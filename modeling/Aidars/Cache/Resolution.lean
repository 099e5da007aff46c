import Aidars.Cache.Reconciliation

/-!
# Resolution of required hashes

`DiskCacheStore.resolve_hashes` reads the rows of all required hashes in batches, repeats on them
the checks of `is_cache_valid`, and has `HitMissResolver` split the hashes into hits and misses
(`resolution_exact`).
-/

namespace Aidars.Cache

variable {cfg : CacheConfig} {d : CacheDisk} {h : String}

/-! ## The resolver -/

/-- Result of resolving requested asset hashes against the local cache. -/
structure ResolutionResult where
  hits : PySet String
  misses : PySet String
  totalRequestedBytes : ℤ
  hitBytes : ℤ
  missBytes : ℤ
  byteHitRatio : ℚ
  networkSavedBytes : ℤ
  deriving DecidableEq

/-- The sum of the sizes of some hashes; a hash without a size counts nothing. -/
def sumSizes (sizes : Dict String ℤ) (hashes : PySet String) : ℤ :=
  (hashes.toList.map fun h => (sizes.get? h).getD 0).sum

/-- `HitMissResolver.resolve_hashes`: the hits and misses among required hashes. -/
def HitMissResolver.resolveHashes (requiredHashes : List String) (cachedHashes : PySet String)
    (hashSizes : Dict String ℤ) : ResolutionResult :=
  let normCached := PySet.ofList (cachedHashes.toList.map lowerText)
  let reqSet := PySet.ofList (requiredHashes.map lowerText)
  let hits := reqSet.inter normCached
  let misses := reqSet.diff normCached
  let hitBytes := sumSizes hashSizes hits
  let missBytes := sumSizes hashSizes misses
  let totalRequestedBytes := hitBytes + missBytes
  let byteHitRatio : ℚ :=
    if 0 < totalRequestedBytes then hitBytes / totalRequestedBytes
    else if misses = ∅ then 1 else 0
  { hits, misses, totalRequestedBytes, hitBytes, missBytes, byteHitRatio,
    networkSavedBytes := hitBytes }

/-! ## The rows of many hashes -/

/-- The rows of a batch of hashes. -/
def readBatch (d : CacheDisk) (result : Dict String CacheEntry) (chunk : List String) :
    Dict String CacheEntry :=
  (d.entries.entries.filter (·.1 ∈ chunk)).foldl (fun result row => result.set row.1 row.2) result

/-- The rows of hashes, read in batches. -/
def getEntriesByHashes (cfg : CacheConfig) (chunkSize : ℕ) (d : CacheDisk) (hashes : List String) :
    Dict String CacheEntry :=
  let uniqueHashes := cfg.setOrder (PySet.ofList (hashes.map lowerText)).toList
  (uniqueHashes.toChunks chunkSize).foldl (readBatch d) ∅

/-- The size of a batch. -/
def queryChunkSize : ℕ := 500

theorem get?_readBatch (d : CacheDisk) (result : Dict String CacheEntry) (chunk : List String)
    (k : String) : (readBatch d result chunk).get? k =
      if k ∈ chunk then (d.entries.get? k).or (result.get? k) else result.get? k := by
  have hstep : ∀ (result : Dict String CacheEntry) (row : String × CacheEntry) (k : String), True →
      (result.set row.1 row.2).get? k = if k = row.1 then some row.2 else result.get? k :=
    fun result row k _ => Dict.get?_set _ _ _ _
  have hkeys : ((d.entries.entries.filter (·.1 ∈ chunk)).map Prod.fst).Nodup :=
    d.entries.nodup.sublist (List.filter_sublist.map _)
  rw [readBatch]
  cases hentry : d.entries.get? k with
  | none =>
    have hno : k ∉ (d.entries.entries.filter (·.1 ∈ chunk)).map Prod.fst := by
      intro hmem
      obtain ⟨row, hrow, rfl⟩ := List.mem_map.mp hmem
      have hsome := Dict.mem_entries.mp (List.mem_filter.mp hrow).1
      rw [hentry] at hsome
      cases hsome
    rw [foldl_view_of_notMem Prod.fst Dict.get? (fun row _ => some row.2) (fun _ => True)
      (fun _ _ _ => trivial) hstep trivial hno, Option.none_or, ite_self]
  | some entry =>
    by_cases hk : k ∈ chunk
    · have hmem : (k, entry) ∈ d.entries.entries.filter (·.1 ∈ chunk) :=
        List.mem_filter.mpr ⟨Dict.mem_entries.mpr hentry, by simpa using hk⟩
      rw [if_pos hk, Option.some_or]
      exact foldl_view_of_mem Prod.fst Dict.get? (fun row _ => some row.2) (fun _ => True)
        (fun _ _ _ => trivial) hstep trivial hkeys hmem
    · have hno : k ∉ (d.entries.entries.filter (·.1 ∈ chunk)).map Prod.fst := by
        intro hmem
        obtain ⟨row, hrow, rfl⟩ := List.mem_map.mp hmem
        exact hk (by simpa using (List.mem_filter.mp hrow).2)
      rw [if_neg hk]
      exact foldl_view_of_notMem Prod.fst Dict.get? (fun row _ => some row.2) (fun _ => True)
        (fun _ _ _ => trivial) hstep trivial hno

theorem get?_foldl_readBatch (d : CacheDisk) (chunks : List (List String))
    (result : Dict String CacheEntry) (k : String) :
    (chunks.foldl (readBatch d) result).get? k =
      if k ∈ chunks.flatten then (d.entries.get? k).or (result.get? k) else result.get? k := by
  induction chunks generalizing result with
  | nil => simp
  | cons chunk chunks ih =>
    rw [List.foldl_cons, ih, get?_readBatch, List.flatten_cons]
    cases hentry : d.entries.get? k <;> by_cases hk : k ∈ chunk <;> simp [hk]

/-- **The batches do not matter**: what is read of a hash is its row. -/
theorem get?_getEntriesByHashes (cfg : CacheConfig) (chunkSize : ℕ) (d : CacheDisk)
    (hashes : List String) (k : String) :
    (getEntriesByHashes cfg chunkSize d hashes).get? k =
      if k ∈ hashes.map lowerText then d.entries.get? k else none := by
  have hmem : k ∈ cfg.setOrder (PySet.ofList (hashes.map lowerText)).toList ↔
      k ∈ hashes.map lowerText := by
    rw [(cfg.setOrder_perm _).mem_iff, PySet.mem_toList, PySet.mem_ofList]
  rw [getEntriesByHashes, get?_foldl_readBatch, flatten_toChunks]
  simp only [hmem]
  split
  · exact Option.or_none
  · rfl

/-! ## The hashes that are cached -/

/-- A required hash is among the cached ones if its row is valid and its file has the size of the
row. -/
def addCached (d : CacheDisk) (cachedEntries : Dict String CacheEntry)
    (cached : PySet String × Dict String ℤ) (sha256 : String) :
    Except CacheError (PySet String × Dict String ℤ) :=
  let normHash := lowerText sha256
  match cachedEntries.get? normHash with
  | none => .ok cached
  | some entry =>
    if entry.state ≠ .valid then .ok cached
    else if objectExists d normHash = false then .ok cached
    else do
      let size ← getSize d normHash
      if size ≠ entry.sizeBytes then .ok cached
      else .ok (cached.1.insert normHash, cached.2.set normHash entry.sizeBytes)

/-- Supplied sizes, by hashes in lowercase. -/
def suppliedSizes (hashSizes : Option (Dict String ℤ)) : Dict String ℤ :=
  Dict.ofList ((hashSizes.getD ∅).entries.map fun e => (lowerText e.1, e.2))

/-- `DiskCacheStore.resolve_hashes`: the hits and misses among required hashes. -/
def DiskCacheStore.resolveHashes (cfg : CacheConfig) (chunkSize : ℕ) (d : CacheDisk)
    (requiredHashes : List String) (hashSizes : Option (Dict String ℤ)) :
    Except CacheError ResolutionResult := do
  let cachedEntries := getEntriesByHashes cfg chunkSize d requiredHashes
  let (cachedHashes, actualSizes) ←
    requiredHashes.foldlM (addCached d cachedEntries) (∅, suppliedSizes hashSizes)
  return HitMissResolver.resolveHashes (requiredHashes.map lowerText) cachedHashes actualSizes

/-- The size that the row of a hash records. -/
def recordedSize (d : CacheDisk) (h : String) : ℤ :=
  ((d.entries.get? h).map fun entry => (entry.sizeBytes : ℤ)).getD 0

/-- The checks of a required hash are those of `is_cache_valid`. -/
theorem addCached_eq {cachedEntries : Dict String CacheEntry} {n : String} (hn : lowerText h = n)
    (hv : validateHash n = .ok n) (hread : cachedEntries.get? n = d.entries.get? n)
    (cached : PySet String × Dict String ℤ) :
    addCached d cachedEntries cached h = .ok (if isCacheValid d n = .ok true then
      (cached.1.insert n, cached.2.set n (recordedSize d n)) else cached) := by
  simp only [addCached, isCacheValid, hn, hv, hread, getEntry_of_valid hv, objectExists, getSize,
    recordedSize]
  cases hentry : d.entries.get? n with
  | none => rfl
  | some entry =>
    by_cases hstate : entry.state = .valid
    · cases hdata : d.objects.get? n with
      | none => simp [hstate]
      | some data =>
        by_cases hsize : data.length = entry.sizeBytes <;> simp [hstate, hsize, Except.map, bind,
          Except.bind]
    · simp [hstate]

/-- A hash is required, in any case, and valid. -/
def IsHit (d : CacheDisk) (requiredHashes : List String) (n : String) : Prop :=
  n ∈ requiredHashes.map lowerText ∧ isCacheValid d n = .ok true

theorem isHit_cons {l : List String} {n : String} : IsHit d (h :: l) n ↔
    (n = lowerText h ∧ isCacheValid d n = .ok true) ∨ IsHit d l n := by
  simp only [IsHit, List.map_cons, List.mem_cons, or_and_right]

/-- What is collected over required hashes. -/
theorem foldlM_addCached {cachedEntries : Dict String CacheEntry} (l : List String)
    (hwell : ∀ h ∈ l, validateHash (lowerText h) = .ok (lowerText h))
    (hread : ∀ h ∈ l, cachedEntries.get? (lowerText h) = d.entries.get? (lowerText h))
    (cached : PySet String × Dict String ℤ) :
    ∃ cached', l.foldlM (addCached d cachedEntries) cached = .ok cached' ∧
      (∀ n, n ∈ cached'.1 ↔ IsHit d l n ∨ n ∈ cached.1) ∧
      (∀ n, IsHit d l n → cached'.2.get? n = some (recordedSize d n)) ∧
      ∀ n, ¬IsHit d l n → cached'.2.get? n = cached.2.get? n := by
  induction l generalizing cached with
  | nil => exact ⟨cached, rfl, by simp [IsHit], by simp [IsHit], fun _ _ => rfl⟩
  | cons h l ih =>
    obtain ⟨hv, hwell'⟩ := List.forall_mem_cons.mp hwell
    obtain ⟨hh, hread'⟩ := List.forall_mem_cons.mp hread
    rw [List.foldlM_cons, addCached_eq rfl hv hh]
    simp only [isHit_cons]
    by_cases hvalid : isCacheValid d (lowerText h) = .ok true
    · rw [if_pos hvalid]
      obtain ⟨cached', hrun, hmem, hhits, hothers⟩ := ih hwell' hread'
        (cached.1.insert (lowerText h), cached.2.set (lowerText h) (recordedSize d (lowerText h)))
      refine ⟨cached', hrun, fun n => ?_, fun n hn => ?_, fun n hn => ?_⟩
      · have hself : n = lowerText h → isCacheValid d n = .ok true := fun heq => heq ▸ hvalid
        rw [hmem, PySet.mem_insert, and_iff_left_of_imp hself, ← or_assoc]
        exact or_congr_left or_comm
      · by_cases hlater : IsHit d l n
        · exact hhits n hlater
        · obtain ⟨rfl, -⟩ := hn.resolve_right hlater
          rw [hothers _ hlater, Dict.get?_set, if_pos rfl]
      · obtain ⟨hne, hlater⟩ := not_or.mp hn
        rw [hothers n hlater, Dict.get?_set, if_neg fun heq => hne ⟨heq, heq ▸ hvalid⟩]
    · rw [if_neg hvalid]
      obtain ⟨cached', hrun, hmem, hhits, hothers⟩ := ih hwell' hread' cached
      have hno : ∀ n, ¬(n = lowerText h ∧ isCacheValid d n = .ok true) := by
        rintro n ⟨rfl, hyes⟩
        exact hvalid hyes
      simp only [hno, false_or]
      exact ⟨cached', hrun, hmem, hhits, hothers⟩

/-! ## Resolution -/

section Resolver

variable {requiredHashes : List String} {cachedHashes : PySet String} {sizes : Dict String ℤ}
  {n : String}

theorem mem_ofList_required : n ∈ PySet.ofList ((requiredHashes.map lowerText).map lowerText) ↔
    n ∈ requiredHashes.map lowerText := by
  simp [Function.comp_def, lowerText_lowerText]

theorem mem_ofList_cached (hlow : ∀ n ∈ cachedHashes, lowerText n = n) :
    n ∈ PySet.ofList (cachedHashes.toList.map lowerText) ↔ n ∈ cachedHashes := by
  rw [PySet.mem_ofList, List.map_congr_left hlow, List.map_id', PySet.mem_toList]

theorem mem_hits (hlow : ∀ n ∈ cachedHashes, lowerText n = n) :
    n ∈ (HitMissResolver.resolveHashes (requiredHashes.map lowerText) cachedHashes sizes).hits ↔
      n ∈ requiredHashes.map lowerText ∧ n ∈ cachedHashes := by
  rw [HitMissResolver.resolveHashes, PySet.mem_inter, mem_ofList_required, mem_ofList_cached hlow]

theorem mem_misses (hlow : ∀ n ∈ cachedHashes, lowerText n = n) :
    n ∈ (HitMissResolver.resolveHashes (requiredHashes.map lowerText) cachedHashes sizes).misses ↔
      n ∈ requiredHashes.map lowerText ∧ n ∉ cachedHashes := by
  rw [HitMissResolver.resolveHashes, PySet.mem_diff, mem_ofList_required, mem_ofList_cached hlow]

end Resolver

/-- The size of the batches does not show in the result. -/
theorem resolveHashes_chunkSize (cfg : CacheConfig) (chunkSize chunkSize' : ℕ) (d : CacheDisk)
    (requiredHashes : List String) (hashSizes : Option (Dict String ℤ)) :
    DiskCacheStore.resolveHashes cfg chunkSize d requiredHashes hashSizes =
      DiskCacheStore.resolveHashes cfg chunkSize' d requiredHashes hashSizes := by
  have hadd : addCached d (getEntriesByHashes cfg chunkSize d requiredHashes) =
      addCached d (getEntriesByHashes cfg chunkSize' d requiredHashes) := by
    funext cached h
    simp only [addCached, get?_getEntriesByHashes]
  simp only [DiskCacheStore.resolveHashes, hadd]

theorem exists_isCacheValid {n : String} (d : CacheDisk) (hv : validateHash n = .ok n) :
    ∃ isValid, isCacheValid d n = .ok isValid := by
  simp only [isCacheValid, hv, objectExists, getSize]
  cases getEntry d n with
  | none => exact ⟨_, rfl⟩
  | some entry =>
    by_cases hstate : entry.state = .valid
    · cases hdata : d.objects.get? n <;> simp [hstate, Except.map]
    · simp [hstate]

/-- **Batched resolution is the validity predicate.** Required hashes that are hashes in any case
are hits if they are valid in lowercase, and misses otherwise; the sizes of the hits are those that
their rows record, and the sizes of the misses those supplied. The size of the batches does not
matter. -/
theorem resolution_exact (cfg : CacheConfig) (chunkSize : ℕ) (d : CacheDisk)
    (requiredHashes : List String) (hashSizes : Option (Dict String ℤ))
    (hwell : ∀ h ∈ requiredHashes, validateHash (lowerText h) = .ok (lowerText h)) :
    ∃ result, DiskCacheStore.resolveHashes cfg chunkSize d requiredHashes hashSizes = .ok result ∧
      DiskCacheStore.resolveHashes cfg queryChunkSize d requiredHashes hashSizes = .ok result ∧
      (∀ n, n ∈ result.hits ↔ n ∈ requiredHashes.map lowerText ∧ isCacheValid d n = .ok true) ∧
      (∀ n, n ∈ result.misses ↔ n ∈ requiredHashes.map lowerText ∧ isCacheValid d n = .ok false) ∧
      (∀ n, ¬(n ∈ result.hits ∧ n ∈ result.misses)) ∧
      (∀ n, n ∈ result.hits ∨ n ∈ result.misses ↔ n ∈ requiredHashes.map lowerText) ∧
      result.hitBytes = (result.hits.toList.map (recordedSize d)).sum ∧
      result.missBytes =
        (result.misses.toList.map fun n => ((suppliedSizes hashSizes).get? n).getD 0).sum ∧
      result.totalRequestedBytes = result.hitBytes + result.missBytes := by
  have hread : ∀ h ∈ requiredHashes,
      (getEntriesByHashes cfg chunkSize d requiredHashes).get? (lowerText h) =
        d.entries.get? (lowerText h) := by
    intro h hh
    rw [get?_getEntriesByHashes, if_pos (List.mem_map_of_mem hh)]
  obtain ⟨cached, hrun, hmem, hhits, hothers⟩ :=
    foldlM_addCached requiredHashes hwell hread (∅, suppliedSizes hashSizes)
  have hcached : ∀ n, n ∈ cached.1 ↔ IsHit d requiredHashes n := fun n => by
    rw [hmem, or_iff_left (PySet.notMem_empty n)]
  have hlow : ∀ n ∈ cached.1, lowerText n = n := by
    intro n hn
    obtain ⟨h, -, rfl⟩ := List.mem_map.mp ((hcached n).mp hn).1
    exact lowerText_lowerText h
  have hresult : DiskCacheStore.resolveHashes cfg chunkSize d requiredHashes hashSizes =
      .ok (HitMissResolver.resolveHashes (requiredHashes.map lowerText) cached.1 cached.2) := by
    rw [DiskCacheStore.resolveHashes, hrun]
    rfl
  have hhit : ∀ n, n ∈ (HitMissResolver.resolveHashes (requiredHashes.map lowerText) cached.1
      cached.2).hits ↔ n ∈ requiredHashes.map lowerText ∧ isCacheValid d n = .ok true := by
    intro n
    rw [mem_hits hlow, hcached, IsHit, and_self_left]
  have hmiss : ∀ n, n ∈ (HitMissResolver.resolveHashes (requiredHashes.map lowerText) cached.1
      cached.2).misses ↔ n ∈ requiredHashes.map lowerText ∧ isCacheValid d n = .ok false := by
    intro n
    rw [mem_misses hlow, hcached, IsHit]
    refine and_congr_right fun hn => ?_
    obtain ⟨h, hh, rfl⟩ := List.mem_map.mp hn
    obtain ⟨isValid, hvalid⟩ := exists_isCacheValid d (hwell h hh)
    cases isValid <;> simp [hn, hvalid]
  refine ⟨_, hresult, ?_, hhit, hmiss, fun n => ?_, fun n => ?_, ?_, ?_, rfl⟩
  · rw [resolveHashes_chunkSize cfg queryChunkSize chunkSize, hresult]
  · rintro ⟨hn, hno⟩
    have hyes := ((hhit n).mp hn).2
    rw [((hmiss n).mp hno).2] at hyes
    cases hyes
  · rw [mem_hits hlow, mem_misses hlow, ← and_or_left]
    exact and_iff_left (em _)
  · refine congrArg List.sum (List.map_congr_left fun n hn => ?_)
    rw [hhits n ((hhit n).mp hn), Option.getD_some]
  · refine congrArg List.sum (List.map_congr_left fun n hn => ?_)
    have hno : ¬IsHit d requiredHashes n := by
      rintro ⟨-, hyes⟩
      rw [((hmiss n).mp hn).2] at hyes
      cases hyes
    rw [hothers n hno]

/-! ### A hash in upper case -/

/-- A hash with letters. -/
def letterHash : String := "aaaaaaaaaaaaaaaaaaaaaaaaaaaaaaaaaaaaaaaaaaaaaaaaaaaaaaaaaaaaaaaa"

/-- The same in upper case. -/
def upperHash : String := "AAAAAAAAAAAAAAAAAAAAAAAAAAAAAAAAAAAAAAAAAAAAAAAAAAAAAAAAAAAAAAAA"

/-- A cache with one valid object. -/
def letterDisk : CacheDisk where
  objects := ⟨[(letterHash, [1])], by decide⟩
  entries := ⟨[(letterHash, { sizeBytes := 1, createdAt := 0, lastAccessedAt := 0 })], by decide⟩

/-- Required in upper case it is a hit, and what has no object is none. -/
theorem resolution_exact_letterDisk : ∃ result,
    DiskCacheStore.resolveHashes sampleConfig queryChunkSize letterDisk
      [upperHash, zeroHash, letterHash] none = .ok result ∧
      letterHash ∈ result.hits ∧ zeroHash ∉ result.hits := by
  obtain ⟨result, hresult, -, hhits, -⟩ := resolution_exact sampleConfig queryChunkSize letterDisk
    [upperHash, zeroHash, letterHash] none (by decide +kernel)
  exact ⟨result, hresult, (hhits letterHash).mpr (by decide +kernel),
    mt (hhits zeroHash).mp (by decide +kernel)⟩

/-- But in upper case it is no hash for the validity predicate. -/
theorem upperHash_not_valid : isCacheValid letterDisk upperHash = .error (.invalidHash upperHash) ∧
    ¬∃ result,
      DiskCacheStore.resolveHashes sampleConfig queryChunkSize letterDisk [upperHash] none =
        .ok result ∧
      ∀ h ∈ [upperHash],
        lowerText h ∈ result.hits ↔ isCacheValid letterDisk h = .ok true := by
  have hlower : lowerText upperHash = letterHash := by decide +kernel
  have hinvalid : isCacheValid letterDisk upperHash = .error (.invalidHash upperHash) := by
    decide +kernel
  have hhit : (DiskCacheStore.resolveHashes sampleConfig queryChunkSize letterDisk [upperHash]
      none).map (fun result => decide (letterHash ∈ result.hits)) = .ok true := by
    decide +kernel
  refine ⟨hinvalid, ?_⟩
  rintro ⟨result, hresult, hall⟩
  have hmem : letterHash ∈ result.hits := by
    rw [hresult] at hhit
    exact of_decide_eq_true (Except.ok.inj hhit)
  have hyes := (hall upperHash List.mem_cons_self).mp (hlower ▸ hmem)
  rw [hinvalid] at hyes
  cases hyes

end Aidars.Cache
