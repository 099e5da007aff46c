import Aidars.Cache.Puts

/-!
# The quota of the disk cache

An operation that stores an object makes room for it before the object gets a row, so that the sizes
in the rows never add up to more than the quota; and nothing comes between the row and the object
(`quota_kept`).
-/

namespace Aidars.Cache

open Prog

variable {cfg : CacheConfig} {locked : String → Bool} {fails : IoCall → Bool} {d d' : CacheDisk}
  {h tmp : String}

/-! ## Disks within the quota -/

/-- The keys of the index are in lowercase, and its sizes within the quota. -/
structure Within (cfg : CacheConfig) (d : CacheDisk) : Prop where
  lowercase : Lowercase d
  room : Room cfg d 0

/-- Only the rows count. -/
theorem Within.congr (hd : Within cfg d) (hentries : d'.entries = d.entries) : Within cfg d' where
  lowercase := by
    rw [Lowercase, hentries]
    exact hd.lowercase
  room := by
    intro quota hquota hpos
    rw [getTotalSize, hentries]
    exact hd.room quota hquota hpos

theorem getTotalSize_dropRow_le (d : CacheDisk) (h : String) :
    getTotalSize (dropRow d h) ≤ getTotalSize d := by
  rw [getTotalSize_eq, getTotalSize_eq]
  exact Dict.total_erase_le _ _

theorem lowercase_dropRow (hd : Lowercase d) (h : String) : Lowercase (dropRow d h) := by
  intro h' hh'
  obtain ⟨entry, hentry⟩ := Dict.mem_keys.mp hh'
  simp only [dropRow, Dict.get?_erase] at hentry
  split_ifs at hentry
  exact hd h' (Dict.mem_keys.mpr ⟨entry, hentry⟩)

/-- Removals and changes of states keep within the quota. -/
theorem stable_within : Stable (Within cfg) where
  eraseObject _ _ hd := hd.congr rfl
  readings _ _ hd := hd.congr rfl
  modifyEntry d h f hf hd := by
    refine ⟨?_, fun quota hquota hpos => ?_⟩
    · intro h' hh'
      rw [Dict.keys_modify] at hh'
      exact hd.lowercase h' hh'
    · have hsize : getTotalSize { d with entries := d.entries.modify h f } = getTotalSize d := by
        rw [getTotalSize_eq, getTotalSize_eq]
        exact Dict.total_modify (fun entry => (hf entry).1) _
      rw [hsize]
      exact hd.room quota hquota hpos
  eraseEntry d h hd := by
    refine ⟨lowercase_dropRow hd.lowercase h, fun quota hquota hpos => ?_⟩
    have hle := getTotalSize_dropRow_le d h
    have := hd.room quota hquota hpos
    change (getTotalSize (dropRow d h) + (0 : ℕ) : ℤ) ≤ quota
    omega

theorem Evicts.within (he : Evicts locked d d') (hd : Within cfg d) : Within cfg d' := by
  refine ⟨he.lowercase hd.lowercase, fun quota hquota hpos => ?_⟩
  have hsize := he.getTotalSize
  have := hd.room quota hquota hpos
  omega

/-! ## What is stored -/

theorem get?_stored (cfg : CacheConfig) (d : CacheDisk) (data : Bytes) :
    (stored cfg d data).entries.get? (cfg.sha256 data) = some (storedRow cfg
      (addObject d (cfg.sha256 data) data) data.length (cfg.sha256 data)) ∧
    (stored cfg d data).objects.get? (cfg.sha256 data) = some data := by
  simp [stored, addRow, addObject]

/-- The row of an object takes the room that was made. -/
theorem within_stored (hd : Lowercase d) {data : Bytes} (hroom : Room cfg d data.length)
    (hlow : lowerText (cfg.sha256 data) = cfg.sha256 data) : Within cfg (stored cfg d data) := by
  refine ⟨?_, fun quota hquota hpos => ?_⟩
  · intro h hh
    obtain ⟨entry, hentry⟩ := Dict.mem_keys.mp hh
    simp only [stored, addRow, addObject, Dict.get?_set] at hentry
    split_ifs at hentry with heq
    · rw [heq, hlow]
    · exact hd h (Dict.mem_keys.mpr ⟨entry, hentry⟩)
  · have hle := getTotalSize_dropRow_le d (cfg.sha256 data)
    have hfit := hroom quota hquota hpos
    have hsize : getTotalSize (stored cfg d data) =
        data.length + getTotalSize (dropRow d (cfg.sha256 data)) := by
      rw [getTotalSize_eq, getTotalSize_eq]
      simp [stored, addRow, addObject, dropRow, Dict.total_set]
    rw [hsize]
    push_cast
    omega

theorem isCacheValid_stored {data : Bytes} (hv : validateHash (cfg.sha256 data) = .ok
    (cfg.sha256 data)) : isCacheValid (stored cfg d data) (cfg.sha256 data) = .ok true := by
  obtain ⟨hentry, hobject⟩ := get?_stored cfg d data
  exact (isCacheValid_of_valid hv).mpr ⟨_, data, hentry, by simp, hobject, by simp⟩

/-! ## Outcomes -/

/-- The disk is within the quota, and an object that was stored is valid. -/
structure Keeping (cfg : CacheConfig) (h : String) (r : PutResult) : Prop where
  within : Within cfg r.2
  valid : ∀ entry, r.1 = .ok entry → isCacheValid r.2 h = .ok true

theorem Keeping.error {e : CacheError} (hd : Within cfg d) : Keeping cfg h (.error e, d) :=
  ⟨hd, by simp⟩

@[simp] theorem entries_leave (fails : IoCall → Bool) (tmp : String) (part : Bytes)
    (d : CacheDisk) : (leave fails tmp part d).entries = d.entries := by
  unfold leave
  split_ifs <;> rfl

@[simp] theorem objects_leave (fails : IoCall → Bool) (tmp : String) (part : Bytes)
    (d : CacheDisk) : (leave fails tmp part d).objects = d.objects := by
  unfold leave
  split_ifs <;> rfl

theorem isCacheValid_leave (fails : IoCall → Bool) (tmp : String) (part : Bytes)
    (d : CacheDisk) : isCacheValid (leave fails tmp part d) h = isCacheValid d h := by
  unfold leave
  split_ifs <;> rfl

theorem within_leave (hd : Within cfg d) (part : Bytes) : Within cfg (leave fails tmp part d) :=
  hd.congr (by simp)

theorem within_touchRow (hd : Within cfg d) (h : String) : Within cfg (touchRow cfg d h) :=
  (stable_within.modifyEntry d h _ (mild_touched _) hd).congr rfl

/-- A valid object that an access was noted to. -/
theorem keeping_touchRow (entry : Option CacheEntry) (hd : Within cfg d)
    (hvalid : isCacheValid d h = .ok true) : Keeping cfg h (.ok entry, touchRow cfg d h) :=
  ⟨within_touchRow hd h, fun _ _ => (isCacheValid_touchRow h).trans hvalid⟩

theorem keeping_commitOutcome {data part : Bytes} {entry : Option CacheEntry} (hd : Within cfg d)
    (hroom : Room cfg d data.length) :
    Keeping cfg (cfg.sha256 data) (commitOutcome cfg fails tmp part entry data d) := by
  unfold commitOutcome
  cases hcommit : commitError cfg fails data with
  | some e => exact .error (within_leave hd part)
  | none =>
    cases hv : validateHash (cfg.sha256 data) with
    | error e => simp [commitError, hv] at hcommit
    | ok n =>
      obtain rfl : n = cfg.sha256 data := eq_of_valid hv
      dsimp only [storeOutcome]
      split_ifs
      · exact .error (hd.congr rfl)
      · exact ⟨within_stored hd.lowercase hroom (lowerText_of_valid hv),
          fun _ _ => isCacheValid_stored hv⟩

theorem keeping_putBytesOutcome {data part : Bytes} {sha256 : Option String}
    {entry : Option CacheEntry} (hd : Within cfg d) : Keeping cfg (cfg.sha256 data)
      (putBytesOutcome cfg locked fails tmp data sha256 part entry d) := by
  obtain ⟨hevicts, hend⟩ := enforceQuota_spec cfg locked hd.lowercase data.length
  unfold putBytesOutcome
  dsimp only
  cases hashError (cfg.sha256 data) sha256 with
  | some e => exact .error hd
  | none =>
    cases hvalid : isCacheValid d (cfg.sha256 data) with
    | error e => exact .error hd
    | ok valid =>
      cases valid with
      | true => exact keeping_touchRow _ hd hvalid
      | false =>
        rcases hr : (enforceQuota cfg locked data.length).run d with ⟨e | freed, d'⟩
        · rw [hr] at hevicts
          exact .error (hevicts.within hd)
        · rw [hr] at hevicts hend
          have hd' : Within cfg d' := hevicts.within hd
          dsimp only
          split_ifs
          · exact .error hd'
          · cases prepareError cfg (inMemory fails) (data.toChunks defaultChunkSize) sha256
              (some data.length) none with
            | some e => exact .error (within_leave hd' part)
            | none => exact keeping_commitOutcome hd' hend

/-- An expected hash that a content has. -/
theorem eq_of_hashError {computed : String} {sha256 : Option String}
    (hhash : hashError computed sha256 = none) : sha256.getD computed = computed := by
  cases sha256 with
  | none => rfl
  | some expected =>
    rw [hashError] at hhash
    cases hv : validateHash expected with
    | error e => simp [hv] at hhash
    | ok n =>
      obtain rfl : n = expected := eq_of_valid hv
      simp only [hv] at hhash
      split_ifs at hhash with heq
      exact (not_not.mp heq).symm

theorem hashError_of_prepareError {stream : List Bytes} {sha256 : Option String}
    {sizeBytes : Option ℕ} {maxBytes : Option ℤ}
    (hprepare : prepareError cfg fails stream sha256 sizeBytes maxBytes = none) :
    hashError (cfg.sha256 (content stream)) sha256 = none := by
  simp only [prepareError, Option.or_eq_none_iff] at hprepare
  exact hprepare.2.1

theorem keeping_ingestOutcome {stream : List Bytes} {sha256 : Option String}
    {sizeBytes : Option ℕ} {maxBytes : Option ℤ} {unopened : Bool} {part : Bytes}
    {entry : Option CacheEntry} (hd : Within cfg d) :
    Keeping cfg (sha256.getD (cfg.sha256 (content stream)))
      (ingestOutcome cfg locked fails tmp stream sha256 sizeBytes maxBytes unopened part entry
        d) := by
  obtain ⟨hevicts, hend⟩ := enforceQuota_spec cfg locked hd.lowercase (content stream).length
  unfold ingestOutcome
  dsimp only
  cases hknown : knownValid d sha256 with
  | error e => exact .error hd
  | ok known =>
    cases known with
    | true =>
      cases sha256 with
      | none => cases hknown
      | some expected =>
        rw [knownValid] at hknown
        split_ifs at hknown
        · cases hknown
        · exact keeping_touchRow _ hd hknown
    | false =>
      dsimp only
      split_ifs
      · exact .error hd
      · cases hprepare : prepareError cfg fails stream sha256 sizeBytes maxBytes with
        | some e => exact .error (within_leave hd part)
        | none =>
          rw [eq_of_hashError (hashError_of_prepareError hprepare)]
          cases hvalid : isCacheValid d (cfg.sha256 (content stream)) with
          | error e => exact .error (within_leave hd part)
          | ok valid =>
            cases valid with
            | true =>
              obtain ⟨hwithin, hstill⟩ := keeping_touchRow none hd hvalid
              refine ⟨within_leave hwithin part, fun _ _ => ?_⟩
              rw [isCacheValid_leave]
              exact hstill _ rfl
            | false =>
              rcases hr : (enforceQuota cfg locked (content stream).length).run d with
                ⟨e | freed, d'⟩
              · rw [hr] at hevicts
                exact .error (within_leave (hevicts.within hd) part)
              · rw [hr] at hevicts hend
                exact keeping_commitOutcome (hevicts.within hd) hend

/-! ## Sequences of operations -/

/-- The name of a staging file is not in use. -/
def Operation.Fresh (d : CacheDisk) : Operation → Prop
  | .putBytes tmp _ _ | .putFile tmp _ _ | .putStream tmp _ _ _ => d.staging.get? tmp = none
  | _ => True

/-- The hash under which an operation stores an object. -/
def Operation.stores (cfg : CacheConfig) : Operation → Option String
  | .putBytes _ data _ => some (cfg.sha256 data)
  | .putFile _ (some (_, stream)) sha256 => some (sha256.getD (cfg.sha256 (content stream)))
  | .putStream _ stream _ sha256 => some (sha256.getD (cfg.sha256 (content stream)))
  | _ => none

/-- The disks after sequences of operations from an empty cache. In between anything may happen to
the object files. -/
inductive Handled (cfg : CacheConfig) : CacheDisk → Prop
  | empty : Handled cfg {}
  | call {d : CacheDisk} (locked : String → Bool) (fails : IoCall → Bool) (op : Operation)
      (hd : Handled cfg d) (hfresh : op.Fresh d) : Handled cfg ((op.prog cfg locked fails).run d).2
  | damage {d : CacheDisk} (objects : Dict String Bytes) (hd : Handled cfg d) :
      Handled cfg { d with objects }

theorem Keeps.last {I : CacheDisk → Prop} {m : CacheProg Unit} (hm : Keeps I m) (hd : I d) :
    I (m.run d).2 :=
  hm.leaves hd (.inr (.inr rfl))

/-- A call of an operation keeps within the quota, and leaves what it stores valid. -/
theorem Operation.keeping (op : Operation) (hd : Within cfg d) (hfresh : op.Fresh d) :
    Within cfg ((op.prog cfg locked fails).run d).2 ∧ ∀ h ∈ op.stores cfg,
      ((op.prog cfg locked fails).run d).1 = .ok () →
        isCacheValid ((op.prog cfg locked fails).run d).2 h = .ok true := by
  -- a call that stores an object, from what its operation comes to
  have hput : ∀ {m : CacheProg (Option CacheEntry)} {r : PutResult} {h : String}, m.run d = r →
      Keeping cfg h r → Within cfg ((do let _ ← m : CacheProg Unit).run d).2 ∧
        (((do let _ ← m : CacheProg Unit).run d).1 = .ok () →
          isCacheValid ((do let _ ← m : CacheProg Unit).run d).2 h = .ok true) := by
    rintro m ⟨r, d'⟩ h hrun ⟨hwithin, hvalid⟩
    rw [run_discard hrun]
    refine ⟨hwithin, fun hok => ?_⟩
    cases r with
    | ok entry => exact hvalid entry rfl
    | error e => cases hok
  cases op with
  | putBytes tmp data sha256 =>
    obtain ⟨part, entry, hrun⟩ := run_putBytes cfg locked fails hfresh data sha256
    obtain ⟨hwithin, hvalid⟩ := hput hrun (keeping_putBytesOutcome hd)
    refine ⟨hwithin, fun h hh => ?_⟩
    obtain rfl := Option.some.inj hh
    exact hvalid
  | putFile tmp source sha256 =>
    cases source with
    | none => exact ⟨hd, by rintro h ⟨⟩⟩
    | some source =>
      obtain ⟨fileSize, stream⟩ := source
      obtain ⟨part, entry, hrun⟩ :=
        run_putFile cfg locked fails hd.lowercase hfresh fileSize stream sha256
      obtain ⟨hwithin, hvalid⟩ := hput hrun (keeping_ingestOutcome hd)
      refine ⟨hwithin, fun h hh => ?_⟩
      obtain rfl := Option.some.inj hh
      exact hvalid
  | putStream tmp stream sizeBytes sha256 =>
    obtain ⟨part, entry, hrun⟩ :=
      run_putStream cfg locked fails hd.lowercase hfresh stream sizeBytes sha256
    obtain ⟨hwithin, hvalid⟩ := hput hrun (keeping_ingestOutcome hd)
    refine ⟨hwithin, fun h hh => ?_⟩
    obtain rfl := Option.some.inj hh
    exact hvalid
  | access sha256 =>
    exact ⟨Keeps.last ((stable_within.keeps_access sha256).bind fun _ => keeps_ret _) hd,
      by rintro h ⟨⟩⟩
  | remove sha256 =>
    exact ⟨Keeps.last ((stable_within.keeps_remove sha256).bind fun _ => keeps_ret _) hd,
      by rintro h ⟨⟩⟩
  | evictLru target =>
    exact ⟨Keeps.last ((stable_within.keeps_evictToFree target).bind fun _ => keeps_ret _) hd,
      by rintro h ⟨⟩⟩
  | verify sha256 deepCheck =>
    exact ⟨Keeps.last ((stable_within.keeps_verifyEntryLocked sha256 deepCheck false).bind
      fun _ => keeps_ret _) hd, by rintro h ⟨⟩⟩
  | verifyAll autoEvict =>
    exact ⟨Keeps.last ((stable_within.keeps_verifyAll autoEvict).bind fun _ => keeps_ret _) hd,
      by rintro h ⟨⟩⟩
  | reconcile verifyHashes =>
    exact ⟨Keeps.last ((stable_within.keeps_reconcile verifyHashes).bind fun _ => keeps_ret _) hd,
      by rintro h ⟨⟩⟩

theorem Handled.within (hd : Handled cfg d) : Within cfg d := by
  induction hd with
  | empty =>
    refine ⟨by rintro _ ⟨⟩, fun quota _ hpos => ?_⟩
    change ((0 : ℕ) + (0 : ℕ) : ℤ) ≤ quota
    omega
  | call locked fails op _ hfresh ih => exact (op.keeping ih hfresh).1
  | damage objects _ ih => exact ih.congr rfl

/-- **The cache keeps its quota.** After every sequence of operations, whatever happens to object
files in between and whichever cannot be removed, the sizes in the rows add up to no more than the
quota; and what an operation stores without an error is valid after it. -/
theorem quota_kept (cfg : CacheConfig) (quota : ℤ) (hquota : cfg.maxCacheSizeBytes = some quota)
    (hpos : 0 < quota) (d : CacheDisk) (hd : Handled cfg d) :
    (getTotalSize d : ℤ) ≤ quota ∧
    ∀ (locked : String → Bool) (fails : IoCall → Bool) (op : Operation), op.Fresh d →
      ∀ h ∈ op.stores cfg, ((op.prog cfg locked fails).run d).1 = .ok () →
        isCacheValid ((op.prog cfg locked fails).run d).2 h = .ok true := by
  refine ⟨?_, fun locked fails op hfresh => (op.keeping hd.within hfresh).2⟩
  have hroom := hd.within.room quota (by simp [hquota]) hpos
  push_cast at hroom
  omega

/-- A cache of one byte. -/
def smallConfig : CacheConfig :=
  { sampleConfig with
    sha256 := fun data => if data = [7] then String.ofList (hashDigits 1) else zeroHash
    maxCacheSizeBytes := some 1 }

/-- It is full with a byte that was stored. -/
def smallDisk : CacheDisk :=
  (((Operation.putBytes "a.tmp" [7] none).prog smallConfig (fun _ => false) fun _ => false).run
    {}).2

/-- Another byte takes the place of the first. -/
theorem quota_kept_small :
    smallDisk.entries.keys = [String.ofList (hashDigits 1)] ∧ (getTotalSize smallDisk : ℤ) ≤ 1 ∧
      isCacheValid (((Operation.putBytes "a.tmp" [1] none).prog smallConfig (fun _ => false)
        (fun _ => false)).run smallDisk).2 zeroHash = .ok true := by
  have hkept := quota_kept smallConfig 1 rfl (by decide) smallDisk (.call _ _ _ .empty rfl)
  exact ⟨by decide +kernel, hkept.1, hkept.2 (fun _ => false) (fun _ => false)
    (.putBytes "a.tmp" [1] none) (by change _ = _; decide +kernel) zeroHash rfl (by decide +kernel)⟩

end Aidars.Cache
