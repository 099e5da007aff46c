import Aidars.Cache.EvictionBatches
import Aidars.Cache.Writes

/-!
# Runs of the operations that store objects

Each of the three operations looks for a valid object, makes room, writes and makes a row, in its
own order. `putBytesOutcome` and `ingestOutcome` say what a whole run returns and leaves, case by
case.
-/

namespace Aidars.Cache

open Prog

variable {cfg : CacheConfig} {locked : String → Bool} {fails : IoCall → Bool} {d d' : CacheDisk}
  {h tmp : String}

/-! ## Valid objects -/

theorem getEntry_touchRow (h' : String) :
    getEntry (touchRow cfg d h) h' = if lowerText h' = h then
      (getEntry d h').map (·.touched (cfg.clock d.readings)) else getEntry d h' := by
  simp only [getEntry, touchRow, Dict.get?_modify]
  split_ifs with heq <;> simp [heq]

/-- An access changes nothing about validity. -/
theorem isCacheValid_touchRow (h' : String) :
    isCacheValid (touchRow cfg d h) h' = isCacheValid d h' := by
  have hexists : ∀ n, objectExists (touchRow cfg d h) n = objectExists d n := fun _ => rfl
  have hsize : ∀ n, getSize (touchRow cfg d h) n = getSize d n := fun _ => rfl
  unfold isCacheValid
  cases hv : validateHash h' with
  | error e => rfl
  | ok n =>
    simp only [getEntry_touchRow, hexists, hsize]
    by_cases heq : lowerText n = h
    · rw [if_pos heq]
      cases getEntry d n <;> rfl
    · rw [if_neg heq]

theorem lowerText_of_isCacheValid {valid : Bool} (hvalid : isCacheValid d h = .ok valid) :
    lowerText h = h := by
  cases hv : validateHash h with
  | error e => simp [isCacheValid, hv] at hvalid
  | ok n => exact lowerText_of_valid hv

theorem run_checkValid_bind {α : Type} (k : Bool → CacheProg α) :
    (checkValid h >>= k).run d = match isCacheValid d h with
      | .ok valid => (k valid).run d
      | .error e => (.error e, d) := by
  have hrun : (checkValid h).run d = (isCacheValid d h, d) := by
    rw [checkValid, run_read_bind]
    cases isCacheValid d h <;> rfl
  cases hvalid : isCacheValid d h with
  | ok valid =>
    rw [hvalid] at hrun
    exact run_bind_ok hrun k
  | error e =>
    rw [hvalid] at hrun
    exact run_bind_error hrun k

/-- The question whether to go on with a write. -/
theorem run_onValidated (size : ℕ) :
    (onValidated cfg locked size h).run d = match isCacheValid d h with
      | .error e => (.error e, d)
      | .ok true => (.error (.duplicateFound (getEntry (touchRow cfg d h) h)), touchRow cfg d h)
      | .ok false =>
        match (enforceQuota cfg locked size).run d with
        | (.error e, d') => (.error e, d')
        | (.ok _, d') => (.ok (), d') := by
  rw [onValidated, run_checkValid_bind]
  cases hvalid : isCacheValid d h with
  | error e => rfl
  | ok valid =>
    cases valid with
    | true =>
      dsimp only
      rw [if_pos rfl, run_bind_ok (run_touch (lowerText_of_isCacheValid hvalid)), run_read_bind,
        run_raise]
    | false =>
      dsimp only
      rw [if_neg Bool.false_ne_true]
      rcases hr : (enforceQuota cfg locked size).run d with ⟨e | _, d'⟩
      · exact run_bind_error hr _
      · exact run_bind_ok hr _

/-! ## Bytes in memory -/

theorem content_append {chunks : List Bytes} (hchunks : ∀ chunk ∈ chunks, chunk ≠ [])
    (rest : List Bytes) : content (chunks ++ rest) = chunks.flatten ++ content rest := by
  induction chunks with
  | nil => rfl
  | cons chunk chunks ih =>
    obtain ⟨hchunk, hrest⟩ := List.forall_mem_cons.mp hchunks
    simp [content, hchunk, ih hrest]

theorem content_go (n : ℕ) (data : Bytes) (chunk : Array UInt8) (chunks : Array Bytes)
    (hchunk : chunk.toList ≠ []) (hchunks : ∀ c ∈ chunks.toList, c ≠ []) :
    content (List.toChunks.go n data chunk chunks) =
      chunks.toList.flatten ++ (chunk.toList ++ data) := by
  induction data generalizing chunk chunks with
  | nil =>
    have hempty : chunk.toList.isEmpty = false := by simpa using hchunk
    rw [List.toChunks.go, Array.toList_push, content_append hchunks, content, hempty]
    simp [content]
  | cons x data ih =>
    rw [List.toChunks.go]
    split_ifs
    · have hpush : ∀ c ∈ (chunks.push chunk.toList).toList, c ≠ [] := by
        rw [Array.toList_push, List.forall_mem_append]
        exact ⟨hchunks, by simpa using hchunk⟩
      rw [ih _ _ (by simp) hpush]
      simp
    · rw [ih _ _ (by simp) hchunks]
      simp

theorem content_toChunks (data : Bytes) : content (data.toChunks defaultChunkSize) = data := by
  cases data with
  | nil => rfl
  | cons x data =>
    have hgo := content_go defaultChunkSize data #[x] #[] (by simp) (by simp)
    rw [List.toChunks, hgo]
    · rfl
    · decide

/-! ## Room -/

/-- The rows leave room for an object. -/
def Room (cfg : CacheConfig) (d : CacheDisk) (size : ℕ) : Prop :=
  ∀ quota ∈ cfg.maxCacheSizeBytes, 0 < quota → (getTotalSize d + size : ℤ) ≤ quota

/-- Rows have to be evicted to make room for an object. -/
def Crowded (d : CacheDisk) (quota : ℤ) (size : ℕ) : Prop :=
  0 < quota ∧ size ≤ quota ∧ quota < (getTotalSize d + size : ℤ)

/-- **A run that makes room**: there is room already, the object is too large, or rows are evicted
and there is room after it or not. -/
theorem run_enforceQuota (cfg : CacheConfig) (locked : String → Bool) (hd : Lowercase d)
    (size : ℕ) :
    (Room cfg d size ∧ (enforceQuota cfg locked size).run d = (.ok 0, d)) ∨
    (∃ quota ∈ cfg.maxCacheSizeBytes, 0 < quota ∧ quota < size ∧
      (enforceQuota cfg locked size).run d = (.error (.quotaExceeded size), d)) ∨
    ∃ quota ∈ cfg.maxCacheSizeBytes, Crowded d quota size ∧ ∃ freed d',
      (evictToFree cfg locked (getTotalSize d + size - quota)).run d = (.ok freed, d') ∧
      Evicts locked d d' ∧ freed + getTotalSize d' = getTotalSize d ∧
      (enforceQuota cfg locked size).run d =
        (if quota < (getTotalSize d' + size : ℤ) then .error (.quotaExceeded size) else .ok freed,
          d') := by
  unfold Room enforceQuota
  cases hquota : cfg.maxCacheSizeBytes with
  | none => exact .inl ⟨by simp, rfl⟩
  | some quota =>
    dsimp only
    by_cases hpos : quota ≤ 0
    · rw [if_pos hpos]
      exact .inl ⟨by simpa using fun h => absurd h (by omega), rfl⟩
    · rw [if_neg hpos]
      by_cases hlarge : quota < size
      · rw [run_failIf_bind_of hlarge]
        exact .inr (.inl ⟨quota, rfl, by omega, hlarge, rfl⟩)
      · rw [run_failIf_bind hlarge, run_read_bind]
        by_cases hroom : (getTotalSize d + size : ℤ) ≤ quota
        · rw [if_pos hroom]
          exact .inl ⟨by simpa using fun _ => hroom, rfl⟩
        · rw [if_neg hroom]
          obtain ⟨freed, d', hrun, hevicts, hsize⟩ := run_evictBatches_ok cfg locked
            (getTotalSize d + size - quota) (d.entries.entries.length + 1) 0 hd
          have hevict : (evictToFree cfg locked (getTotalSize d + size - quota)).run d =
              (.ok freed, d') := (run_evictToFree (by omega)).trans hrun
          refine .inr (.inr ⟨quota, rfl, ⟨by omega, by omega, by omega⟩, freed, d', hevict, hevicts,
            by omega, ?_⟩)
          rw [run_bind_ok hevict, run_read_bind]
          split_ifs with hfull
          · rw [run_failIf_bind_of hfull]
          · rw [run_failIf_bind hfull, run_pure]

theorem enforceQuota_spec (cfg : CacheConfig) (locked : String → Bool) (hd : Lowercase d)
    (size : ℕ) : Evicts locked d ((enforceQuota cfg locked size).run d).2 ∧
      Ending (fun _ => (Room cfg · size)) (fun e _ => e = .quotaExceeded size)
        ((enforceQuota cfg locked size).run d).1 ((enforceQuota cfg locked size).run d).2 := by
  rcases run_enforceQuota cfg locked hd size with ⟨hroom, hrun⟩ | ⟨quota, -, -, -, hrun⟩ |
    ⟨quota, hquota, -, freed, d', -, hevicts, -, hrun⟩
  · rw [hrun]
    exact ⟨.refl _ _, hroom⟩
  · rw [hrun]
    exact ⟨.refl _ _, rfl⟩
  · rw [hrun]
    refine ⟨hevicts, ?_⟩
    split_ifs with hfull
    · rfl
    · intro quota' hquota' _
      obtain rfl := Option.some.inj (hquota.symm.trans hquota')
      change (getTotalSize d' + size : ℤ) ≤ quota
      omega

/-! ## The operations -/

/-- The disk with an object and its row. -/
def stored (cfg : CacheConfig) (d : CacheDisk) (data : Bytes) : CacheDisk :=
  addRow cfg (addObject d (cfg.sha256 data) data) data.length (cfg.sha256 data)

/-- A result or an error, and the disk. -/
abbrev PutResult := Except CacheError (Option CacheEntry) × CacheDisk

/-- What is left of an object that was written, depending on its row. -/
def storeOutcome (cfg : CacheConfig) (fails : IoCall → Bool) (entry : Option CacheEntry)
    (data : Bytes) (d : CacheDisk) : PutResult :=
  if fails .insertRow then
    (.error .rowRefused, { addObject d (cfg.sha256 data) data with readings := d.readings + 2 })
  else (.ok entry, stored cfg d data)

/-- The end of a write that was let through. -/
def commitOutcome (cfg : CacheConfig) (fails : IoCall → Bool) (tmp : String) (part : Bytes)
    (entry : Option CacheEntry) (data : Bytes) (d : CacheDisk) : PutResult :=
  match commitError cfg fails data with
  | some e => (.error e, leave fails tmp part d)
  | none => storeOutcome cfg fails entry data d

/-- What `put_bytes` comes to. -/
def putBytesOutcome (cfg : CacheConfig) (locked : String → Bool) (fails : IoCall → Bool)
    (tmp : String) (data : Bytes) (sha256 : Option String) (part : Bytes)
    (entry : Option CacheEntry) (d : CacheDisk) : PutResult :=
  let computed := cfg.sha256 data
  match hashError computed sha256 with
  | some e => (.error e, d)
  | none =>
    match isCacheValid d computed with
    | .error e => (.error e, d)
    | .ok true => (.ok (getEntry (touchRow cfg d computed) computed), touchRow cfg d computed)
    | .ok false =>
      match (enforceQuota cfg locked data.length).run d with
      | (.error e, d') => (.error e, d')
      | (.ok _, d') =>
        if fails .ensureDirectories ∨ fails .openStaging then (.error .osError, d')
        else match prepareError cfg (inMemory fails) (data.toChunks defaultChunkSize) sha256
            (some data.length) none with
        | some e => (.error e, leave fails tmp part d')
        | none => commitOutcome cfg fails tmp part entry data d'

/-- Whether the object that is expected is valid already. -/
def knownValid (d : CacheDisk) : Option String → Except CacheError Bool
  | none => .ok false
  | some sha256 => if sha256 = "" then .ok false else isCacheValid d sha256

/-- What the operations on files and streams come to, given whether a staging file was opened. -/
def ingestOutcome (cfg : CacheConfig) (locked : String → Bool) (fails : IoCall → Bool)
    (tmp : String) (stream : List Bytes) (sha256 : Option String) (sizeBytes : Option ℕ)
    (maxBytes : Option ℤ) (unopened : Bool) (part : Bytes) (entry : Option CacheEntry)
    (d : CacheDisk) : PutResult :=
  let computed := cfg.sha256 (content stream)
  match knownValid d sha256 with
  | .error e => (.error e, d)
  | .ok true =>
    (.ok (getEntry (touchRow cfg d (sha256.getD "")) (sha256.getD "")),
      touchRow cfg d (sha256.getD ""))
  | .ok false =>
    if unopened then (.error .osError, d)
    else match prepareError cfg fails stream sha256 sizeBytes maxBytes with
    | some e => (.error e, leave fails tmp part d)
    | none =>
      match isCacheValid d computed with
      | .error e => (.error e, leave fails tmp part d)
      | .ok true =>
        (.ok (getEntry (touchRow cfg d computed) computed),
          leave fails tmp part (touchRow cfg d computed))
      | .ok false =>
        match (enforceQuota cfg locked (content stream).length).run d with
        | (.error e, d') => (.error e, leave fails tmp part d')
        | (.ok _, d') => commitOutcome cfg fails tmp part entry (content stream) d'

/-- What a write leaves is made an object with a row. -/
theorem run_storeEntry_of_commitError {data : Bytes}
    (hcommit : commitError cfg fails data = none) :
    ∃ entry, (storeEntry cfg fails data.length (cfg.sha256 data)).run
      (addObject d (cfg.sha256 data) data) = storeOutcome cfg fails entry data d := by
  cases hv : validateHash (cfg.sha256 data) with
  | error e => simp [commitError, hv] at hcommit
  | ok n =>
    obtain rfl : n = cfg.sha256 data := eq_of_valid hv
    obtain ⟨entry, hrun⟩ := run_storeEntry hv data.length
    exact ⟨_, hrun⟩

/-- **A run of `put_bytes`.** -/
theorem run_putBytes (cfg : CacheConfig) (locked : String → Bool) (fails : IoCall → Bool)
    (hfresh : d.staging.get? tmp = none) (data : Bytes) (sha256 : Option String) :
    ∃ part entry, (putBytes cfg locked fails tmp data sha256).run d =
      putBytesOutcome cfg locked fails tmp data sha256 part entry d := by
  unfold putBytes putBytesOutcome
  dsimp only
  have hhash : (checkHash (cfg.sha256 data) sha256).run d = _ := run_checkHash _ _
  cases herror : hashError (cfg.sha256 data) sha256 with
  | some e =>
    rw [herror] at hhash
    exact ⟨[], none, run_bind_error hhash _⟩
  | none =>
    rw [herror] at hhash
    rw [run_bind_ok hhash, run_checkValid_bind]
    cases hvalid : isCacheValid d (cfg.sha256 data) with
    | error e => exact ⟨[], none, rfl⟩
    | ok valid =>
      dsimp only
      cases valid with
      | true =>
        rw [if_pos rfl, run_bind_ok (run_touch (lowerText_of_isCacheValid hvalid))]
        exact ⟨[], none, rfl⟩
      | false =>
        rw [if_neg Bool.false_ne_true]
        have hstaging : ((enforceQuota cfg locked data.length).run d).2.staging = d.staging :=
          (ignoresStaging_enforceQuota _).staging_eq d
        rcases hr : (enforceQuota cfg locked data.length).run d with ⟨e | freed, d'⟩
        · exact ⟨[], none, run_bind_error hr _⟩
        rw [hr] at hstaging
        obtain ⟨part, hwrite⟩ : ∃ part, (writeStream cfg (inMemory fails) tmp
          (data.toChunks defaultChunkSize) sha256 (some data.length) none
            fun _ _ => pure ()).run d' = _ :=
          run_writeStream ((congrArg (·.get? tmp) hstaging).trans hfresh) fun _ _ => .ret _
        rw [content_toChunks, run_pure] at hwrite
        rw [run_bind_ok hr]
        dsimp only at hwrite ⊢
        by_cases hunopened : fails .ensureDirectories ∨ fails .openStaging
        · simp only [if_pos hunopened]
          rw [if_pos (show inMemory fails .ensureDirectories ∨ inMemory fails .openStaging from
            hunopened)] at hwrite
          exact ⟨part, none, run_bind_error hwrite _⟩
        simp only [if_neg hunopened]
        rw [if_neg (show ¬(inMemory fails .ensureDirectories ∨ inMemory fails .openStaging) from
          hunopened)] at hwrite
        cases hprepare : prepareError cfg (inMemory fails) (data.toChunks defaultChunkSize) sha256
            (some data.length) none with
        | some e =>
          rw [hprepare] at hwrite
          exact ⟨part, none, run_bind_error hwrite _⟩
        | none =>
          rw [hprepare] at hwrite
          dsimp only at hwrite ⊢
          unfold commitOutcome
          change _ = match commitError cfg fails data with | some e => _ | none => _ at hwrite
          cases hcommit : commitError cfg fails data with
          | some e =>
            rw [hcommit] at hwrite
            exact ⟨part, none, run_bind_error hwrite _⟩
          | none =>
            rw [hcommit] at hwrite
            obtain ⟨entry, hentry⟩ := run_storeEntry_of_commitError (d := d') hcommit
            rw [run_bind_ok hwrite]
            exact ⟨part, entry, hentry⟩

/-! ### Files and streams -/

theorem run_checkKnown (sha256 : Option String) :
    (checkKnown sha256).run d = (knownValid d sha256, d) := by
  cases sha256 with
  | none => rfl
  | some sha256 =>
    rw [checkKnown, knownValid]
    split_ifs
    · rfl
    · rw [checkValid, run_read_bind]
      cases isCacheValid d sha256 <;> rfl

theorem eq_of_validateHash_error {e : CacheError} (he : validateHash h = .error e) :
    e = .invalidHash h := by
  unfold validateHash at he
  split_ifs at he
  exact (Except.error.inj he).symm

/-- The question for validity fails on no other text. -/
theorem validateHash_of_isCacheValid_error {e : CacheError} (he : isCacheValid d h = .error e) :
    validateHash h = .error e := by
  cases hv : validateHash h with
  | error e' => simpa [isCacheValid, hv] using he
  | ok n =>
    obtain rfl : n = h := eq_of_valid hv
    simp only [isCacheValid, hv, getEntry_of_valid hv, objectExists_of_valid hv] at he
    cases hentry : d.entries.get? n with
    | none => simp [hentry] at he
    | some entry =>
      cases hdata : d.objects.get? n with
      | none => simp [hentry, hdata] at he
      | some data =>
        simp only [hentry, hdata, getSize_of_valid hv hdata] at he
        split_ifs at he
        cases he

theorem stageError_ne (fails : IoCall → Bool) (maxBytes : Option ℤ) (stream : List Bytes) (n : ℕ)
    (entry : Option CacheEntry) :
    stageError fails maxBytes stream n ≠ some (.duplicateFound entry) := by
  induction stream generalizing n with
  | nil =>
    rw [stageError]
    split_ifs <;> simp
  | cons chunk rest ih =>
    rw [stageError]
    split_ifs
    · simp
    · simp
    · simp
    · simp
    · exact ih _

theorem prepareError_ne (cfg : CacheConfig) (fails : IoCall → Bool) (stream : List Bytes)
    (expectedSha256 : Option String) (expectedSize : Option ℕ) (maxBytes : Option ℤ)
    (entry : Option CacheEntry) :
    prepareError cfg fails stream expectedSha256 expectedSize maxBytes ≠
      some (.duplicateFound entry) := by
  have hstage := stageError_ne fails maxBytes stream 0 entry
  have hhash : hashError (cfg.sha256 (content stream)) expectedSha256 ≠
      some (.duplicateFound entry) := by
    cases expectedSha256 with
    | none => simp [hashError]
    | some expected =>
      rw [hashError]
      cases hv : validateHash expected with
      | error e => simp [eq_of_validateHash_error hv]
      | ok normExpected =>
        dsimp only
        split_ifs <;> simp
  have hsize : sizeError (content stream).length expectedSize ≠ some (.duplicateFound entry) := by
    cases expectedSize with
    | none => simp [sizeError]
    | some size =>
      rw [sizeError]
      split_ifs <;> simp
  unfold prepareError
  cases hs : stageError fails maxBytes stream 0 with
  | some e => rwa [hs] at hstage
  | none =>
    cases hh : hashError (cfg.sha256 (content stream)) expectedSha256 with
    | some e => rwa [hh] at hhash
    | none => simpa using hsize

theorem commitError_ne (cfg : CacheConfig) (fails : IoCall → Bool) (data : Bytes)
    (entry : Option CacheEntry) : commitError cfg fails data ≠ some (.duplicateFound entry) := by
  unfold commitError
  cases hv : validateHash (cfg.sha256 data) with
  | error e => simp [eq_of_validateHash_error hv]
  | ok n =>
    dsimp only
    split_ifs <;> simp

theorem run_ingest {sha256 : Option String} {write : CacheProg (ℕ × String)}
    (hknown : knownValid d sha256 = .ok false) :
    (ingest cfg fails sha256 write).run d = match write.run d with
      | (.ok (writtenSize, computedHash), d') =>
        (storeEntry cfg fails writtenSize computedHash).run d'
      | (.error (.duplicateFound entry), d') => (.ok entry, d')
      | (.error e, d') => (.error e, d') := by
  have hcheck := run_checkKnown (d := d) sha256
  rw [hknown] at hcheck
  rw [ingest, run_bind_ok hcheck, if_neg Bool.false_ne_true]
  rcases hr : write.run d with ⟨e | ⟨size, computed⟩, d'⟩
  · rw [run_bind_ok (run_attempt hr)]
    cases e <;> rfl
  · rw [run_bind_ok (run_attempt hr)]

theorem run_ingest_error {sha256 : Option String} {write : CacheProg (ℕ × String)} {e : CacheError}
    (hknown : knownValid d sha256 = .ok false) (hwrite : write.run d = (.error e, d'))
    (hne : ∀ entry, e ≠ .duplicateFound entry) :
    (ingest cfg fails sha256 write).run d = (.error e, d') := by
  rw [run_ingest hknown, hwrite]
  cases e with
  | duplicateFound entry => exact absurd rfl (hne entry)
  | _ => rfl

/-- Nothing is written of an object that is valid already. -/
theorem run_ingest_known {sha256 : Option String} {write : CacheProg (ℕ × String)}
    (hknown : knownValid d sha256 = .ok true) :
    (ingest cfg fails sha256 write).run d =
      (.ok (getEntry (touchRow cfg d (sha256.getD "")) (sha256.getD "")),
        touchRow cfg d (sha256.getD "")) := by
  have hcheck := run_checkKnown (d := d) sha256
  rw [hknown] at hcheck
  have hlow : lowerText (sha256.getD "") = sha256.getD "" := by
    cases sha256 with
    | none => rfl
    | some sha256 =>
      rw [knownValid] at hknown
      split_ifs at hknown with hempty
      · cases hknown
      · exact lowerText_of_isCacheValid hknown
  rw [ingest, run_bind_ok hcheck, if_pos rfl, run_bind_ok (run_touch hlow)]
  rfl

theorem run_ingest_unknown {sha256 : Option String} {write : CacheProg (ℕ × String)}
    {e : CacheError} (hknown : knownValid d sha256 = .error e) :
    (ingest cfg fails sha256 write).run d = (.error e, d) := by
  have hcheck := run_checkKnown (d := d) sha256
  rw [hknown] at hcheck
  rw [ingest, run_bind_error hcheck]

/-- **A run of an operation on a file or a stream.** -/
theorem run_ingest_writeStream (hd : Lowercase d) (hfresh : d.staging.get? tmp = none)
    (stream : List Bytes) (sha256 : Option String) (sizeBytes : Option ℕ) (maxBytes : Option ℤ) :
    ∃ part entry,
      (ingest cfg fails sha256 (writeStream cfg fails tmp stream sha256 sizeBytes maxBytes
      (onValidated cfg locked))).run d =
        ingestOutcome cfg locked fails tmp stream sha256 sizeBytes maxBytes
          (fails .ensureDirectories || fails .openStaging) part entry d := by
  unfold ingestOutcome
  dsimp only
  cases hknown : knownValid d sha256 with
  | error e => exact ⟨[], none, run_ingest_unknown hknown⟩
  | ok known =>
    cases known with
    | true => exact ⟨[], none, run_ingest_known hknown⟩
    | false =>
      obtain ⟨part, hwrite⟩ : ∃ part, (writeStream cfg fails tmp stream sha256 sizeBytes maxBytes
          (onValidated cfg locked)).run d = _ :=
        run_writeStream hfresh fun _ _ => ignoresStaging_onValidated _ _
      by_cases hunopened : fails .ensureDirectories ∨ fails .openStaging
      · rw [if_pos hunopened] at hwrite
        refine ⟨part, none, ?_⟩
        rw [run_ingest_error hknown hwrite (by simp), if_pos (by simpa using hunopened)]
      simp only [if_neg (show ¬(fails .ensureDirectories || fails .openStaging) = true by
        simpa using hunopened)]
      rw [if_neg hunopened] at hwrite
      cases hprepare : prepareError cfg fails stream sha256 sizeBytes maxBytes with
      | some e =>
        rw [hprepare] at hwrite
        refine ⟨part, none, run_ingest_error hknown hwrite ?_⟩
        rintro entry rfl
        exact prepareError_ne cfg fails stream sha256 sizeBytes maxBytes entry hprepare
      | none =>
        rw [hprepare] at hwrite
        dsimp only at hwrite
        rw [run_onValidated] at hwrite
        cases hvalid : isCacheValid d (cfg.sha256 (content stream)) with
        | error e =>
          rw [hvalid] at hwrite
          refine ⟨part, none, run_ingest_error hknown hwrite ?_⟩
          rintro entry rfl
          have hv := validateHash_of_isCacheValid_error hvalid
          cases eq_of_validateHash_error hv
        | ok valid =>
          rw [hvalid] at hwrite
          cases valid with
          | true =>
            refine ⟨part, none, ?_⟩
            rw [run_ingest hknown, hwrite]
          | false =>
            obtain ⟨-, hend⟩ := enforceQuota_spec cfg locked hd (content stream).length
            dsimp only at hwrite ⊢
            rcases hr : (enforceQuota cfg locked (content stream).length).run d with ⟨e | freed, d'⟩
            · rw [hr] at hwrite hend
              obtain rfl : e = _ := hend
              exact ⟨part, none, run_ingest_error hknown hwrite (by simp)⟩
            · rw [hr] at hwrite
              dsimp only at hwrite ⊢
              unfold commitOutcome
              cases hcommit : commitError cfg fails (content stream) with
              | some e =>
                rw [hcommit] at hwrite
                refine ⟨part, none, run_ingest_error hknown hwrite ?_⟩
                rintro entry rfl
                exact commitError_ne cfg fails (content stream) entry hcommit
              | none =>
                rw [hcommit] at hwrite
                obtain ⟨entry, hentry⟩ := run_storeEntry_of_commitError (d := d') hcommit
                refine ⟨part, entry, ?_⟩
                rw [run_ingest hknown, hwrite]
                exact hentry

/-- **A run of `put_stream`.** -/
theorem run_putStream (cfg : CacheConfig) (locked : String → Bool) (fails : IoCall → Bool)
    (hd : Lowercase d) (hfresh : d.staging.get? tmp = none) (stream : List Bytes)
    (sizeBytes : Option ℕ) (sha256 : Option String) :
    ∃ part entry, (putStream cfg locked fails tmp stream sizeBytes sha256).run d =
      ingestOutcome cfg locked fails tmp stream sha256 sizeBytes cfg.maxCacheSizeBytes
        (fails .ensureDirectories || fails .openStaging) part entry d :=
  run_ingest_writeStream hd hfresh stream sha256 sizeBytes cfg.maxCacheSizeBytes

/-- **A run of `put_file`.** -/
theorem run_putFile (cfg : CacheConfig) (locked : String → Bool) (fails : IoCall → Bool)
    (hd : Lowercase d) (hfresh : d.staging.get? tmp = none) (fileSize : ℕ) (stream : List Bytes)
    (sha256 : Option String) :
    ∃ part entry, (putFile cfg locked fails tmp (some (fileSize, stream)) sha256).run d =
      ingestOutcome cfg locked fails tmp stream sha256 (some fileSize) none
        (fails .openSource || (fails .ensureDirectories || fails .openStaging)) part entry d := by
  rw [putFile]
  cases hsource : fails .openSource with
  | true =>
    unfold ingestOutcome
    dsimp only
    cases hknown : knownValid d sha256 with
    | error e => exact ⟨[], none, run_ingest_unknown hknown⟩
    | ok known =>
      cases known with
      | true => exact ⟨[], none, run_ingest_known hknown⟩
      | false =>
        refine ⟨[], none, ?_⟩
        rw [run_ingest_error hknown (run_performIo_bind_of_fails hsource _) (by simp)]
        rfl
  | false =>
    rw [Bool.false_or]
    have hwrite : (do
        performIo fails .openSource
        writeStream cfg fails tmp stream sha256 (some fileSize) none (onValidated cfg locked)) =
        writeStream cfg fails tmp stream sha256 (some fileSize) none (onValidated cfg locked) := by
      rw [performIo, Prog.failIf, if_neg (by simp [hsource])]
      rfl
    rw [hwrite]
    exact run_ingest_writeStream hd hfresh stream sha256 (some fileSize) none

end Aidars.Cache
