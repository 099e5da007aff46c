import Aidars.Cache.Quota

/-!
# The operations that store objects, side by side

Without failures the three operations come to the same on the same content, but for the limit of
`put_stream` and the path that `put_file` stores: `put_stream` takes the quota for a limit even when
a quota of zero is none, and before it asks whether the object is valid already, and the index takes
no path that cannot be encoded (`puts_agree_iff`).
-/

namespace Aidars.Cache

open Prog

variable {cfg : CacheConfig} {locked : String → Bool} {d d' : CacheDisk} {h tmp : String}

/-! ## Staging without failures -/

/-- No call of the file system fails. -/
def rowFault (refused : Bool) : IoCall → Bool
  | .insertRow => refused
  | _ => false

/-- Nothing fails. -/
def noFault : IoCall → Bool := rowFault false

/-- A path can be encoded in UTF-8: none of its characters is a surrogate, which stands for a byte
that is not part of UTF-8. -/
def encodable (path : List ℕ) : Bool := path.all fun c => c < 0xD800 || 0xDFFF < c

/-- Nothing fails but the row of a file whose path cannot be encoded. -/
def pathFault (path : List ℕ) : IoCall → Bool := rowFault !encodable path

/-- A stream is too large if its content is. -/
theorem stageError_rowFault (refused : Bool) (maxBytes : Option ℤ) (stream : List Bytes) (n : ℕ) :
    stageError (rowFault refused) maxBytes stream n =
      if content stream ≠ [] ∧ ∃ limit ∈ maxBytes, limit < (n + (content stream).length : ℤ) then
        some (.streamTooLarge (maxBytes.getD 0))
      else none := by
  induction stream generalizing n with
  | nil => simp [stageError, content, rowFault]
  | cons chunk rest ih =>
    rw [stageError, content]
    by_cases hempty : chunk.isEmpty = true
    · simp [rowFault, hempty]
    · have hchunk : chunk ≠ [] := by simpa using hempty
      rw [ih]
      cases maxBytes with
      | none => simp [rowFault, hempty]
      | some limit =>
        by_cases hlimit : limit < (n + chunk.length : ℤ)
        · have hmore : limit < (n + (chunk.length + (content rest).length) : ℤ) := by omega
          simp [rowFault, hempty, hchunk, hlimit, hmore]
        · by_cases hrest : content rest = []
          · simp [rowFault, hempty, hrest, hlimit]
          · simp [rowFault, hempty, hchunk, hrest, hlimit, add_assoc]

/-! ## Outcomes without failures -/

/-- What an operation comes to that puts no limit on the content of a stream. -/
def plainOutcome (cfg : CacheConfig) (locked : String → Bool) (refused : Bool) (data : Bytes)
    (entry : Option CacheEntry) (d : CacheDisk) : PutResult :=
  if isCacheValid d (cfg.sha256 data) = .ok true then (.ok entry, touchRow cfg d (cfg.sha256 data))
  else
    match (enforceQuota cfg locked data.length).run d with
    | (.error e, d') => (.error e, d')
    | (.ok _, d') => storeOutcome cfg (rowFault refused) entry data d'

variable {data : Bytes} {sha256 : Option String}

theorem isCacheValid_of_ne (hv : validateHash h = .ok h) (hno : isCacheValid d h ≠ .ok true) :
    isCacheValid d h = .ok false := by
  cases hvalid : isCacheValid d h with
  | error e =>
    have := validateHash_of_isCacheValid_error hvalid
    simp [hv] at this
  | ok valid =>
    cases valid with
    | true => exact absurd hvalid hno
    | false => rfl

theorem hashError_of_own (hv : validateHash h = .ok h) (hown : sha256 = none ∨ sha256 = some h) :
    hashError h sha256 = none := by
  rcases hown with rfl | rfl
  · rfl
  · simp [hashError, hv]

theorem commitError_rowFault {refused : Bool}
    (hv : validateHash (cfg.sha256 data) = .ok (cfg.sha256 data)) :
    commitError cfg (rowFault refused) data = none := by
  simp [commitError, hv, rowFault]

theorem putBytes_rowFault (refused : Bool) (locked : String → Bool)
    (hv : validateHash (cfg.sha256 data) = .ok (cfg.sha256 data)) (hown : sha256 = none ∨
      sha256 = some (cfg.sha256 data)) (hfresh : d.staging.get? tmp = none) :
    ∃ entry, (putBytes cfg locked (rowFault refused) tmp data sha256).run d =
      plainOutcome cfg locked refused data entry d := by
  obtain ⟨part, entry, hrun⟩ := run_putBytes cfg locked (rowFault refused) hfresh data sha256
  have hmemory : inMemory (rowFault refused) = (rowFault refused) := by
    ext call
    cases call <;> rfl
  have hprepare : prepareError cfg (rowFault refused) (data.toChunks defaultChunkSize) sha256
      (some data.length) none = none := by
    simp [prepareError, stageError_rowFault, content_toChunks, hashError_of_own hv hown, sizeError]
  rw [hrun]
  unfold putBytesOutcome plainOutcome commitOutcome
  dsimp only
  rw [hashError_of_own hv hown, hmemory, hprepare, commitError_rowFault hv]
  by_cases hvalid : isCacheValid d (cfg.sha256 data) = .ok true
  · simp only [hvalid, if_true]
    exact ⟨_, rfl⟩
  · simp only [isCacheValid_of_ne hv hvalid]
    refine ⟨entry, ?_⟩
    rw [if_neg (by simp)]
    rcases (enforceQuota cfg locked data.length).run d with ⟨e | freed, d'⟩
    · rfl
    · simp [rowFault]

/-- The limit on the content of a stream is hit. -/
def TooLarge (maxBytes : Option ℤ) (data : Bytes) : Prop :=
  data ≠ [] ∧ ∃ limit ∈ maxBytes, limit < (data.length : ℤ)

instance (maxBytes : Option ℤ) (data : Bytes) : Decidable (TooLarge maxBytes data) :=
  inferInstanceAs (Decidable (data ≠ [] ∧ ∃ limit ∈ maxBytes, limit < (data.length : ℤ)))

theorem leave_rowFault (refused : Bool) (tmp : String) (part : Bytes) (d : CacheDisk) :
    leave (rowFault refused) tmp part d = d := by
  simp [leave, rowFault]

/-- An object that is expected is valid already. -/
theorem knownValid_of_own (hv : validateHash h = .ok h) (hown : sha256 = none ∨ sha256 = some h) :
    knownValid d sha256 = .ok (decide (sha256 ≠ none ∧ isCacheValid d h = .ok true)) := by
  rcases hown with rfl | rfl
  · rfl
  · have hne : h ≠ "" := by
      rintro rfl
      revert hv
      decide
    rw [knownValid, if_neg hne]
    by_cases hvalid : isCacheValid d h = .ok true
    · simp [hvalid]
    · simp [isCacheValid_of_ne hv hvalid]

/-- Without failures an operation on a file or a stream hits its limit, unless the object is known
to be valid, or comes to the same as one without a limit. -/
theorem ingestOutcome_rowFault (refused : Bool) (locked : String → Bool) (d : CacheDisk)
    (tmp : String)
    {stream : List Bytes} {sizeBytes : Option ℕ} (maxBytes : Option ℤ)
    (hv : validateHash (cfg.sha256 (content stream)) = .ok (cfg.sha256 (content stream)))
    (hown : sha256 = none ∨ sha256 = some (cfg.sha256 (content stream)))
    (hsize : sizeBytes = none ∨ sizeBytes = some (content stream).length) (part : Bytes)
    (entry : Option CacheEntry) :
    if TooLarge maxBytes (content stream) ∧
        ¬(sha256 ≠ none ∧ isCacheValid d (cfg.sha256 (content stream)) = .ok true) then
      ∃ e, ingestOutcome cfg locked (rowFault refused) tmp stream sha256 sizeBytes maxBytes false
        part entry
        d = (.error e, d)
    else
      ∃ entry', ingestOutcome cfg locked (rowFault refused) tmp stream sha256 sizeBytes maxBytes
        false part
        entry d = plainOutcome cfg locked refused (content stream) entry' d := by
  have hknown := knownValid_of_own (d := d) hv hown
  have hprepare : prepareError cfg (rowFault refused) stream sha256 sizeBytes maxBytes =
      if TooLarge maxBytes (content stream) then some (.streamTooLarge (maxBytes.getD 0))
      else none := by
    have hsizeError : sizeError (content stream).length sizeBytes = none := by
      rcases hsize with rfl | rfl <;> simp [sizeError]
    rw [prepareError, stageError_rowFault, hashError_of_own hv hown, hsizeError]
    simp [TooLarge]
  unfold ingestOutcome plainOutcome commitOutcome
  simp only [hknown, hprepare, leave_rowFault, commitError_rowFault hv]
  by_cases hk : sha256 ≠ none ∧ isCacheValid d (cfg.sha256 (content stream)) = .ok true
  · have hget : sha256.getD "" = cfg.sha256 (content stream) := by
      rcases hown with rfl | rfl
      · exact absurd rfl hk.1
      · rfl
    simp only [hk.2, if_true, hget]
    simp only [hk, ne_eq, not_false_eq_true, and_self, not_true_eq_false, and_false, if_false]
    exact ⟨_, rfl⟩
  · simp only [hk, decide_false, not_false_eq_true, and_true, Bool.false_eq_true, if_false]
    by_cases hlarge : TooLarge maxBytes (content stream)
    · simp only [if_pos hlarge]
      exact ⟨_, rfl⟩
    · simp only [if_neg hlarge]
      by_cases hvalid : isCacheValid d (cfg.sha256 (content stream)) = .ok true
      · simp only [hvalid, if_true]
        exact ⟨_, rfl⟩
      · simp only [isCacheValid_of_ne hv hvalid]
        exact ⟨entry, rfl⟩

/-! ## Agreement -/

/-- Two disks have the same rows, up to the times and the counts of accesses, and the same object
files. -/
def SameContents (d d' : CacheDisk) : Prop :=
  ∀ h, (d.entries.get? h).map (fun entry => (entry.sizeBytes, entry.state)) =
      (d'.entries.get? h).map (fun entry => (entry.sizeBytes, entry.state)) ∧
    d.objects.get? h = d'.objects.get? h

/-- Both operations succeed and leave the same contents, or both fail. -/
def Agrees (r r' : PutResult) : Prop :=
  (r.1.isOk = r'.1.isOk) ∧ (r.1.isOk = true → SameContents r.2 r'.2)

theorem agrees_error {e : CacheError} {r : PutResult} :
    Agrees r (.error e, d) ↔ r.1.isOk = false := by
  constructor
  · exact fun h => h.1
  · intro h
    exact ⟨h, fun hok => absurd (hok.symm.trans h) (by decide)⟩

/-- There is no room for an object, nor can it be made. -/
def NoRoom (cfg : CacheConfig) (locked : String → Bool) (d : CacheDisk) (size : ℕ) : Prop :=
  ((enforceQuota cfg locked size).run d).1.isOk = false

/-- A row that is refused makes a difference if it was to be made. -/
theorem agrees_plainOutcome (refused : Bool) (data : Bytes) (entry entry' : Option CacheEntry)
    (d : CacheDisk) :
    Agrees (plainOutcome cfg locked false data entry d)
        (plainOutcome cfg locked refused data entry' d) ↔
      (refused = false ∨ isCacheValid d (cfg.sha256 data) = .ok true ∨
        NoRoom cfg locked d data.length) := by
  unfold plainOutcome NoRoom
  by_cases hvalid : isCacheValid d (cfg.sha256 data) = .ok true
  · rw [if_pos hvalid, if_pos hvalid]
    exact iff_of_true ⟨rfl, fun _ _ => ⟨rfl, rfl⟩⟩ (.inr (.inl hvalid))
  · rw [if_neg hvalid, if_neg hvalid, or_iff_right hvalid]
    rcases (enforceQuota cfg locked data.length).run d with ⟨e | freed, d'⟩
    · exact iff_of_true ⟨rfl, fun _ _ => ⟨rfl, rfl⟩⟩ (.inr rfl)
    · cases refused with
      | false => exact iff_of_true ⟨rfl, fun _ _ => ⟨rfl, rfl⟩⟩ (.inl rfl)
      | true =>
        exact iff_of_false (fun h => Bool.noConfusion h.1) (by simp [Except.isOk, Except.toBool])

/-- A content above the quota is stored if the quota is none, or if it is stored already. -/
theorem isOk_plainOutcome_of_large {quota : ℤ} {entry : Option CacheEntry}
    (hquota : cfg.maxCacheSizeBytes = some quota) (hlarge : quota < data.length) :
    (plainOutcome cfg locked false data entry d).1.isOk = true ↔
      quota ≤ 0 ∨ isCacheValid d (cfg.sha256 data) = .ok true := by
  unfold plainOutcome enforceQuota
  simp only [hquota]
  by_cases hvalid : isCacheValid d (cfg.sha256 data) = .ok true
  · rw [if_pos hvalid]
    exact iff_of_true rfl (.inr hvalid)
  · rw [if_neg hvalid, or_iff_left hvalid]
    by_cases hpos : quota ≤ 0
    · rw [if_pos hpos]
      exact iff_of_true rfl hpos
    · rw [if_neg hpos, run_failIf_bind_of hlarge]
      exact iff_of_false Bool.false_ne_true hpos

/-- **When the three operations agree.** Without failures of the file system they come to the same,
except that `put_stream` refuses a content that is larger than the quota where the others store it:
when a quota of zero or less is none, or when the object is valid already and no hash says so; and
that `put_file` raises after it stored an object whose path cannot be encoded. -/
theorem puts_agree_iff (cfg : CacheConfig) (locked : String → Bool) (d : CacheDisk)
    (hd : Lowercase d) (tmp₁ tmp₂ tmp₃ : String) (hfresh₁ : d.staging.get? tmp₁ = none)
    (hfresh₂ : d.staging.get? tmp₂ = none) (hfresh₃ : d.staging.get? tmp₃ = none) (data : Bytes)
    (hv : validateHash (cfg.sha256 data) = .ok (cfg.sha256 data)) (sha256 : Option String)
    (hown : sha256 = none ∨ sha256 = some (cfg.sha256 data)) (file stream : List Bytes)
    (path : List ℕ) (hfile : content file = data) (hstream : content stream = data)
    (sizeBytes : Option ℕ)
    (hsize : sizeBytes = none ∨ sizeBytes = some data.length) :
    (Agrees ((putBytes cfg locked noFault tmp₁ data sha256).run d)
        ((putFile cfg locked (pathFault path) tmp₂ (some (data.length, file)) sha256).run d) ∧
      Agrees ((putBytes cfg locked noFault tmp₁ data sha256).run d)
        ((putStream cfg locked noFault tmp₃ stream sizeBytes sha256).run d)) ↔
    (encodable path = true ∨ isCacheValid d (cfg.sha256 data) = .ok true ∨
        NoRoom cfg locked d data.length) ∧
      ¬∃ quota ∈ cfg.maxCacheSizeBytes, data ≠ [] ∧ quota < data.length ∧
        (quota ≤ 0 ∨ isCacheValid d (cfg.sha256 data) = .ok true) ∧
        ¬(sha256 ≠ none ∧ isCacheValid d (cfg.sha256 data) = .ok true) := by
  obtain ⟨entry, hbytes⟩ := putBytes_rowFault false locked hv hown hfresh₁
  obtain ⟨part, entry₂, hfileRun⟩ :=
    run_putFile cfg locked (pathFault path) hd hfresh₂ data.length file sha256
  obtain ⟨part', entry₃, hstreamRun⟩ :=
    run_putStream cfg locked noFault hd hfresh₃ stream sizeBytes sha256
  subst hfile
  have hfileEnd :=
    ingestOutcome_rowFault (!encodable path) locked d tmp₂ none hv hown (.inr rfl) part entry₂
  rw [← hstream] at hv hown hsize
  have hstreamEnd := ingestOutcome_rowFault false locked d tmp₃ cfg.maxCacheSizeBytes hv hown hsize
    part' entry₃
  rw [if_neg (by simp [TooLarge])] at hfileEnd
  obtain ⟨entry₂', hfileEnd⟩ := hfileEnd
  change _ = ingestOutcome cfg locked (rowFault _) _ _ _ _ _ false _ _ _ at hfileRun
  change _ = ingestOutcome cfg locked (rowFault false) _ _ _ _ _ false _ _ _ at hstreamRun
  have hbytes' : (putBytes cfg locked noFault tmp₁ (content file) sha256).run d = _ := hbytes
  rw [hbytes', hfileRun, hfileEnd, hstreamRun, agrees_plainOutcome, Bool.not_eq_false']
  refine and_congr_right fun _ => ?_
  rw [hstream] at hstreamEnd
  split_ifs at hstreamEnd with hlarge
  · obtain ⟨e, hstreamEnd⟩ := hstreamEnd
    obtain ⟨⟨hne, quota, hquota, hless⟩, hunknown⟩ := hlarge
    rw [hstreamEnd, agrees_error, ← Bool.not_eq_true,
      isOk_plainOutcome_of_large hquota hless]
    constructor
    · rintro hno ⟨quota', hquota', -, -, hdiffer, -⟩
      obtain rfl := Option.some.inj (hquota.symm.trans hquota')
      exact hno hdiffer
    · exact fun hno hdiffer => hno ⟨quota, hquota, hne, hless, hdiffer, hunknown⟩
  · obtain ⟨entry₃', hstreamEnd⟩ := hstreamEnd
    rw [hstreamEnd]
    refine iff_of_true ((agrees_plainOutcome _ _ _ _ _).mpr (.inl rfl)) ?_
    rintro ⟨quota, hquota, hne, hless, -, hunknown⟩
    exact hlarge ⟨⟨hne, quota, hquota, hless⟩, hunknown⟩

/-- A cache of three bytes. -/
def tripleConfig : CacheConfig := { sampleConfig with maxCacheSizeBytes := some 3 }

/-- Each operation makes room for a byte on a disk that is full, and stores it. -/
theorem puts_agree_iff_one :
    ((putBytes tripleConfig (fun _ => false) noFault "a.tmp" [1] none).run mixedDisk).1.isOk =
      true ∧
      Agrees ((putBytes tripleConfig (fun _ => false) noFault "a.tmp" [1] none).run mixedDisk)
        ((putFile tripleConfig (fun _ => false) (pathFault [97]) "b.tmp" (some (1, [[1]])) none).run
          mixedDisk) ∧
      Agrees ((putBytes tripleConfig (fun _ => false) noFault "a.tmp" [1] none).run mixedDisk)
        ((putStream tripleConfig (fun _ => false) noFault "c.tmp" [[1], []] (some 1) none).run
          mixedDisk) :=
  ⟨by decide +kernel, (puts_agree_iff tripleConfig (fun _ => false) mixedDisk
    lowercase_mixedDisk "a.tmp" "b.tmp" "c.tmp" rfl rfl rfl [1] (by decide +kernel) none
    (.inl rfl) [[1]] [[1], []] [97] rfl rfl (some 1) (.inr rfl)).mpr
      ⟨.inl (by decide), by simp [tripleConfig]⟩⟩

/-- A cache with a quota of zero, which is none. -/
def zeroConfig : CacheConfig := { sampleConfig with maxCacheSizeBytes := some 0 }

/-- It stores bytes but no stream. -/
theorem zeroConfig_disagrees :
    ¬Agrees ((putBytes zeroConfig (fun _ => false) noFault "a.tmp" [1] none).run {})
      ((putStream zeroConfig (fun _ => false) noFault "c.tmp" [[1]] none none).run {}) := by
  intro hagrees
  have hbytes : ((putBytes zeroConfig (fun _ => false) noFault "a.tmp" [1] none).run {}).1.isOk =
      true := by decide +kernel
  have hstream : ((putStream zeroConfig (fun _ => false) noFault "c.tmp" [[1]] none none).run
      {}).1.isOk = false := by decide +kernel
  have hsame := hagrees.1
  rw [hbytes, hstream] at hsame
  cases hsame

end Aidars.Cache
