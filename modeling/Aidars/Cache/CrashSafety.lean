import Aidars.Cache.Store

/-!
# Crash safety of the disk cache

A crash stops an operation between two of its steps, and the next operation runs on what is left.

Only a rename makes an object file, and it makes it under the hash of what was staged; all else
removes files or changes rows. So every reachable disk is `Sound`: object files hold what their
names say, whatever the rows claim (`Reachable.sound`).
-/

namespace Aidars.Cache

open Prog

variable {cfg : CacheConfig} {locked : String → Bool} {fails : IoCall → Bool} {d : CacheDisk}
  {h : String}

/-! ## Hashes -/

theorem toLower_of_matchRepeat {l : List Char} (hm : matchRepeat isLowerHexDigit 64 64 l = true) :
    ∀ c ∈ l, c.toLower = c := by
  simp only [matchRepeat, Bool.or_eq_true, Bool.and_eq_true, List.all_eq_true, beq_iff_eq] at hm
  rcases hm with ⟨⟨hall, -⟩, -⟩ | ⟨hlast, ⟨hall, -⟩, -⟩
  · exact fun c hc => toLower_of_isLowerHexDigit (hall c hc)
  · intro c hc
    obtain ⟨init, rfl⟩ := List.getLast?_eq_some_iff.mp hlast
    rw [List.dropLast_concat] at hall
    rcases List.mem_append.mp hc with hc | hc
    · exact toLower_of_isLowerHexDigit (hall c hc)
    · rw [List.mem_singleton.mp hc]
      rfl

theorem lowerText_of_valid {n : String} (hv : validateHash h = .ok n) : lowerText h = h := by
  unfold validateHash at hv
  split at hv
  case isTrue hm =>
    rw [lowerText, lower, List.map_congr_left (toLower_of_matchRepeat hm), List.map_id',
      String.ofList_toList]
  case isFalse => cases hv

theorem eq_of_valid {n : String} (hv : validateHash h = .ok n) : n = h := by
  have hlower := lowerText_of_valid hv
  unfold validateHash at hv
  split at hv
  · rw [← Except.ok.inj hv, hlower]
  · cases hv

/-! ## What removals and index statements keep -/

/-- An update of a row that keeps the size and forgets no access. -/
def Mild (f : CacheEntry → CacheEntry) : Prop :=
  ∀ entry, (f entry).sizeBytes = entry.sizeBytes ∧ entry.accessCount ≤ (f entry).accessCount

theorem mild_state (status : CacheState) : Mild ({ · with state := status }) :=
  fun _ => ⟨rfl, le_rfl⟩

theorem mild_touched (accessedAt : ℚ) : Mild (·.touched accessedAt) :=
  fun _ => ⟨rfl, Nat.le_succ _⟩

/-- An invariant that the removal of object files, and mild updates of rows, keep. -/
structure Quiet (I : CacheDisk → Prop) : Prop where
  eraseObject : ∀ d h, I d → I { d with objects := d.objects.erase h }
  modifyEntry : ∀ d h f, Mild f → I d → I { d with entries := d.entries.modify h f }
  readings : ∀ d n, I d → I { d with readings := n }

/-- One that the deletion of rows keeps as well. -/
structure Stable (I : CacheDisk → Prop) : Prop extends Quiet I where
  eraseEntry : ∀ d h, I d → I { d with entries := d.entries.erase h }

variable {I : CacheDisk → Prop}

theorem keeps_checkValid (h : String) : Keeps I (checkValid h) :=
  (keeps_read _).bind fun _ => keeps_lift _

theorem keeps_checkKnown (sha256 : Option String) : Keeps I (checkKnown sha256) := by
  cases sha256 with
  | none => exact keeps_ret _
  | some h =>
    rw [checkKnown]
    split
    · exact keeps_ret _
    · exact keeps_checkValid h

theorem keeps_checkHash (h : String) (expected : Option String) :
    Keeps I (checkHash h expected) := by
  cases expected with
  | none => exact keeps_ret _
  | some e => exact (keeps_lift _).bind fun _ => keeps_failIf _ _

theorem keeps_performIo (call : IoCall) : Keeps I (performIo fails call) := keeps_failIf _ _

theorem keeps_checkSize (n : ℕ) (expected : Option ℕ) : Keeps I (checkSize n expected) := by
  cases expected with
  | none => exact keeps_ret _
  | some e => exact keeps_failIf _ _

namespace Quiet

variable (hI : Quiet I)
include hI

theorem keeps_deleteObject (h : String) : Keeps I (deleteObject locked h) := by
  unfold deleteObject
  refine (keeps_lift _).bind fun normHash => (keeps_read _).bind fun data => ?_
  split
  · exact keeps_ret _
  · exact (keeps_failIf _ _).bind fun _ =>
      (keeps_step fun d => hI.eraseObject d _).bind fun _ => keeps_ret _

theorem keeps_touch (h : String) : Keeps I (touch cfg h) :=
  Keeps.bind (keeps_quietly fun d => hI.readings d _) fun _ =>
    keeps_step fun d => hI.modifyEntry d _ _ (mild_touched _)

theorem keeps_updateStatus (h : String) (status : CacheState) :
    Keeps I (updateStatus h status) := by
  unfold updateStatus
  refine (keeps_read _).bind fun entry => ?_
  cases entry with
  | none => exact keeps_ret _
  | some entry =>
    exact (keeps_failIf _ _).bind fun _ =>
      (keeps_step fun d => hI.modifyEntry d _ _ (mild_state _)).bind fun _ => keeps_ret _

end Quiet

namespace Stable

variable (hI : Stable I)
include hI

theorem keeps_removeEntry (h : String) : Keeps I (removeEntry h) :=
  (keeps_read _).bind fun _ => (keeps_step fun d => hI.eraseEntry d _).bind fun _ => keeps_ret _

theorem keeps_evictCandidates (target : ℤ) (candidates : List (String × CacheEntry))
    (freed : ℕ) (progress : Bool) :
    Keeps I (evictCandidates cfg locked target candidates freed progress) := by
  induction candidates generalizing freed progress with
  | nil => exact keeps_ret _
  | cons candidate rest ih =>
    obtain ⟨sha256, entry⟩ := candidate
    rw [evictCandidates]
    split
    · exact keeps_ret _
    · refine (hI.keeps_updateStatus _ _).attempt.bind fun marked => ?_
      cases marked with
      | error _ => exact ih _ _
      | ok _ =>
        refine (hI.keeps_deleteObject _).attempt.bind fun deleted => ?_
        cases deleted with
        | error _ =>
          exact (hI.keeps_updateStatus _ _).bind fun _ => (hI.keeps_touch _).bind fun _ => ih _ _
        | ok _ => exact (hI.keeps_removeEntry _).bind fun _ => ih _ _

theorem keeps_evictBatches (target : ℤ) (fuel freed : ℕ) :
    Keeps I (evictBatches cfg locked target fuel freed) := by
  induction fuel generalizing freed with
  | zero => exact keeps_ret _
  | succ fuel ih =>
    rw [evictBatches]
    split
    · exact keeps_ret _
    · refine (keeps_read _).bind fun candidates => ?_
      split
      · exact keeps_ret _
      · refine (hI.keeps_evictCandidates _ _ _ _).bind fun batch => ?_
        dsimp only
        split
        · exact ih _
        · exact keeps_ret _

theorem keeps_evictToFree (target : ℤ) : Keeps I (evictToFree cfg locked target) := by
  unfold evictToFree
  split
  · exact keeps_ret _
  · exact (keeps_read _).bind fun rows => hI.keeps_evictBatches _ _ _

theorem keeps_enforceQuota (incomingBytes : ℕ) :
    Keeps I (enforceQuota cfg locked incomingBytes) := by
  unfold enforceQuota
  split
  · exact keeps_ret _
  · split
    · exact keeps_ret _
    · refine (keeps_failIf _ _).bind fun _ => (keeps_read _).bind fun current => ?_
      split
      · exact keeps_ret _
      · exact (hI.keeps_evictToFree _).bind fun _ => (keeps_read _).bind fun _ =>
          (keeps_failIf _ _).bind fun _ => keeps_ret _

theorem keeps_onValidated (size : ℕ) (h : String) : Keeps I (onValidated cfg locked size h) := by
  unfold onValidated
  refine (keeps_checkValid _).bind fun isValid => ?_
  split
  · exact (hI.keeps_touch _).bind fun _ => (keeps_read _).bind fun _ => keeps_raise _
  · exact (hI.keeps_enforceQuota _).bind fun _ => keeps_ret _

theorem keeps_access (h : String) : Keeps I (access cfg h) := by
  unfold access
  refine (keeps_lift _).bind fun normHash => (keeps_checkValid _).bind fun isValid => ?_
  split
  · exact (hI.keeps_touch _).bind fun _ => keeps_ret _
  · exact keeps_ret _

theorem keeps_remove (h : String) : Keeps I (remove locked h) :=
  (keeps_lift _).bind fun _ => (hI.keeps_deleteObject _).bind fun _ =>
    (hI.keeps_removeEntry _).bind fun _ => keeps_ret _

theorem keeps_verifyEntryLocked (h : String) (deepCheck autoEvict : Bool) :
    Keeps I (verifyEntryLocked cfg locked h deepCheck autoEvict) := by
  unfold verifyEntryLocked
  refine (keeps_read _).bind fun entry => ?_
  cases entry with
  | none => exact keeps_ret _
  | some entry =>
    refine (hI.keeps_updateStatus _ _).bind fun _ => (keeps_read _).bind fun data => ?_
    cases data with
    | none =>
      dsimp only
      split
      · exact (hI.keeps_removeEntry _).bind fun _ => keeps_ret _
      · exact (hI.keeps_updateStatus _ _).bind fun _ => keeps_ret _
    | some data =>
      dsimp only
      split
      · split
        · exact (hI.keeps_deleteObject _).attempt.bind fun _ =>
            (hI.keeps_removeEntry _).bind fun _ => keeps_ret _
        · exact (hI.keeps_updateStatus _ _).bind fun _ => keeps_ret _
      · exact (hI.keeps_updateStatus _ _).bind fun _ => keeps_ret _

theorem keeps_scrubEntry (deepCheck autoEvict : Bool) (report : VerificationReport)
    (row : String × CacheEntry) :
    Keeps I (scrubEntry cfg locked deepCheck autoEvict report row) := by
  unfold scrubEntry
  refine (keeps_read _).bind fun data => ?_
  cases data with
  | none =>
    dsimp only
    split
    · exact (hI.keeps_removeEntry _).bind fun _ => keeps_ret _
    · exact (hI.keeps_updateStatus _ _).bind fun _ => keeps_ret _
  | some data =>
    dsimp only
    split
    · split
      · exact (hI.keeps_deleteObject _).attempt.bind fun _ =>
          (hI.keeps_removeEntry _).bind fun _ => keeps_ret _
      · exact (hI.keeps_updateStatus _ _).bind fun _ => keeps_ret _
    · exact (hI.keeps_updateStatus _ _).bind fun _ => keeps_ret _

theorem keeps_verifyAll (autoEvict : Bool) : Keeps I (verifyAll cfg locked autoEvict) :=
  (keeps_read _).bind fun _ =>
    (Keeps.foldlM (fun _ _ => hI.keeps_scrubEntry _ _ _ _) _ _).bind fun _ => keeps_ret _

theorem keeps_dropCorrupted (report : ReconcileReport) (h : String) :
    Keeps I (dropCorrupted locked report h) :=
  (hI.keeps_removeEntry _).bind fun _ => (hI.keeps_deleteObject _).bind fun _ => keeps_ret _

theorem keeps_reconcileEntry (dangling : List String) (report : ReconcileReport)
    (row : String × CacheEntry) :
    Keeps I (reconcileEntry cfg locked dangling report row) := by
  unfold reconcileEntry
  split
  · exact keeps_ret _
  · refine (keeps_read _).bind fun size => (keeps_lift _).bind fun actualSize => ?_
    split
    · exact hI.keeps_dropCorrupted _ _
    · refine Keeps.bind (Keeps.attempt ?_) fun verified => ?_
      · refine (hI.keeps_verifyEntryLocked _ _ _).bind fun isValid => ?_
        split
        · exact hI.keeps_dropCorrupted _ _
        · exact keeps_ret _
      · cases verified with
        | ok _ => exact keeps_ret _
        | error _ => exact hI.keeps_dropCorrupted _ _

theorem keeps_reconcile (verifyHashes : Bool) : Keeps I (reconcile cfg locked verifyHashes) := by
  unfold reconcile
  refine (keeps_read _).bind fun indexedEntries => (keeps_read _).bind fun physicalHashes => ?_
  refine (Keeps.foldlM (fun _ _ => (hI.keeps_removeEntry _).bind fun _ => keeps_ret _) _ _).bind
    fun _ => ?_
  refine (Keeps.foldlM (fun _ _ => (hI.keeps_deleteObject _).bind fun _ => keeps_ret _) _ _).bind
    fun _ => ?_
  split
  · exact Keeps.foldlM (fun _ _ => hI.keeps_reconcileEntry _ _ _) _ _
  · exact keeps_ret _

end Stable

/-! ## Eviction ends -/

/-- The rows of the index, by their keys. -/
def HasKeys (ks : List String) (d : CacheDisk) : Prop := d.entries.keys = ks

theorem quiet_hasKeys (ks : List String) : Quiet (HasKeys ks) where
  eraseObject _ _ hd := hd
  modifyEntry _ _ _ _ hd := (Dict.keys_modify _ _ _).trans hd
  readings _ _ hd := hd

/-- The deletion of a row takes its key away. -/
theorem triple_removeEntry {ks : List String} (hlow : lowerText h = h)
    {E : CacheError → CacheDisk → Prop} :
    Triple (HasKeys ks) (removeEntry h) (fun _ => HasKeys (ks.filter (· ≠ h))) E
      (fun _ => True) := by
  refine triple_read_bind fun d hd => Triple.bind (triple_step fun d' hd' => ⟨trivial, ?_⟩)
    fun _ => triple_ret fun _ hs => hs
  obtain rfl := hd'
  obtain rfl := hd
  rw [hlow, HasKeys]
  simp only [Dict.keys, Dict.erase, List.filter_map]
  rfl

theorem evictCandidates_fewer {ks : List String} (target : ℤ)
    (candidates : List (String × CacheEntry)) (freed : ℕ) (progress : Bool)
    (hkeys : ∀ c ∈ candidates, c.1 ∈ ks ∧ lowerText c.1 = c.1)
    (hnodup : (candidates.map Prod.fst).Nodup) :
    Triple (HasKeys ks) (evictCandidates cfg locked target candidates freed progress)
      (fun r d => (∀ h ∈ d.entries.keys, h ∈ ks) ∧ d.entries.keys.length ≤ ks.length ∧
        (r.2 = true → progress = true ∨ d.entries.keys.length < ks.length))
      (fun _ _ => True) (fun _ => True) := by
  induction candidates generalizing ks freed progress with
  | nil => exact triple_ret fun d hd => ⟨hd ▸ fun _ hh => hh, hd ▸ le_rfl, .inl⟩
  | cons candidate rest ih =>
    obtain ⟨h, entry⟩ := candidate
    have hrest := List.forall_mem_cons.mp hkeys
    have hne := List.nodup_cons.mp hnodup
    have hquiet := quiet_hasKeys ks
    have hskip (freed : ℕ) := ih freed progress hrest.2 hne.2
    rw [evictCandidates]
    split
    · exact triple_ret fun d hd => ⟨hd ▸ fun _ hh => hh, hd ▸ le_rfl, .inl⟩
    · refine ((hquiet.keeps_updateStatus h .evicting).attempt.triple fun _ _ => trivial).bind
        fun marked => ?_
      cases marked with
      | error _ => exact hskip _
      | ok _ =>
        refine ((hquiet.keeps_deleteObject h).attempt.triple fun _ _ => trivial).bind
          fun deleted => ?_
        cases deleted with
        | error _ =>
          refine ((hquiet.keeps_updateStatus h _).triple fun _ _ => trivial).bind fun _ => ?_
          exact ((hquiet.keeps_touch h).triple fun _ _ => trivial).bind fun _ => hskip _
        | ok _ =>
          refine (triple_removeEntry hrest.1.2).bind fun _ => ?_
          have hfewer : (ks.filter (· ≠ h)).length < ks.length :=
            List.length_filter_lt_length_iff_exists.mpr ⟨h, hrest.1.1, by simp⟩
          refine (ih _ true (fun c hc => ⟨?_, (hrest.2 c hc).2⟩) hne.2).consequence
            (fun _ hd => hd) ?_ (fun _ _ he => he) fun _ hs => hs
          · have hother : c.1 ≠ h := by
              rintro rfl
              exact hne.1 (List.mem_map.mpr ⟨c, hc, rfl⟩)
            exact List.mem_filter.mpr ⟨(hrest.2 c hc).1, decide_eq_true hother⟩
          · rintro r d ⟨hsub, hle, -⟩
            exact ⟨fun h hh => (List.mem_filter.mp (hsub h hh)).1, hle.trans hfewer.le,
              fun _ => .inr (hle.trans_lt hfewer)⟩

/-- **More batches than rows are never needed.** -/
theorem evictBatches_succ (target : ℤ) (fuel freed : ℕ)
    (hlow : ∀ h ∈ d.entries.keys, lowerText h = h) (hfuel : d.entries.keys.length < fuel) :
    evictBatches cfg locked target (fuel + 1) freed d =
      evictBatches cfg locked target fuel freed d := by
  induction fuel generalizing freed d with
  | zero => exact absurd hfuel (Nat.not_lt_zero _)
  | succ fuel ih =>
    rw [evictBatches, evictBatches]
    split
    · rfl
    · refine bind_congr_of_result fun candidates hcandidates => ?_
      obtain rfl := Except.ok.inj hcandidates
      split
      · rfl
      · refine bind_congr_of_result fun batch hbatch => ?_
        dsimp only
        split
        case isTrue hprogress =>
          have hkeys : ∀ c ∈ getLruCandidates d 100, c.1 ∈ d.entries.keys := fun c hc =>
            List.mem_map_of_mem ((List.mem_insertionSort _).mp (List.mem_of_mem_take hc))
          have hnodup : ((getLruCandidates d 100).map Prod.fst).Nodup :=
            (((List.perm_insertionSort _ _).map Prod.fst).nodup_iff.mpr
              d.entries.nodup).sublist ((List.take_sublist _ _).map _)
          obtain ⟨-, hfewer⟩ := evictCandidates_fewer target (getLruCandidates d 100) freed false
            (fun c hc => ⟨hkeys c hc, hlow _ (hkeys c hc)⟩) hnodup d rfl
          have hbatch' : (evictCandidates cfg locked target (getLruCandidates d 100) freed false
              d).result = .ok batch := hbatch
          rw [hbatch'] at hfewer
          obtain ⟨hsub, -, hlt⟩ := hfewer
          have hless := (hlt hprogress).resolve_left (by decide)
          exact ih _ (fun h hh => hlow h (hsub h hh)) (hless.trans_le (Nat.lt_succ_iff.mp hfuel))
        case isFalse => rfl

/-! ## Objects hold what their names say -/

/-- Every object file holds what its name is the hash of, and rows belong to hashes. -/
structure Sound (cfg : CacheConfig) (d : CacheDisk) : Prop where
  hashed : ∀ h data, d.objects.get? h = some data → validateHash h = .ok h ∧ cfg.sha256 data = h
  keyed : ∀ h entry, d.entries.get? h = some entry → validateHash h = .ok h

theorem stable_sound : Stable (Sound cfg) where
  eraseObject d h hd := by
    refine ⟨fun h' data hget => ?_, hd.keyed⟩
    rw [Dict.get?_erase] at hget
    split at hget
    · cases hget
    · exact hd.hashed h' data hget
  modifyEntry d h f _ hd := by
    refine ⟨hd.hashed, fun h' entry hget => ?_⟩
    rw [Dict.get?_modify] at hget
    split at hget
    case isTrue heq =>
      obtain ⟨old, hold, -⟩ := Option.map_eq_some_iff.mp hget
      exact heq ▸ hd.keyed h old hold
    case isFalse => exact hd.keyed h' entry hget
  eraseEntry d h hd := by
    refine ⟨hd.hashed, fun h' entry hget => ?_⟩
    rw [Dict.get?_erase] at hget
    split at hget
    · cases hget
    · exact hd.keyed h' entry hget
  readings d n hd := ⟨hd.hashed, hd.keyed⟩

/-- In a sound state a staging file holds some bytes. -/
def Staged (cfg : CacheConfig) (tmp : String) (data : Bytes) (d : CacheDisk) : Prop :=
  Sound cfg d ∧ d.staging.get? tmp = some data

theorem stable_staged {tmp : String} {data : Bytes} : Stable (Staged cfg tmp data) where
  eraseObject d h hd := ⟨stable_sound.eraseObject d h hd.1, hd.2⟩
  modifyEntry d h f hf hd := ⟨stable_sound.modifyEntry d h f hf hd.1, hd.2⟩
  eraseEntry d h hd := ⟨stable_sound.eraseEntry d h hd.1, hd.2⟩
  readings d n hd := ⟨stable_sound.readings d n hd.1, hd.2⟩

/-- What is staged is what was written. -/
theorem stageChunks_staged (tmp : String) (maxBytes : Option ℤ) (stream : List Bytes)
    (written : Bytes) :
    Triple (Staged cfg tmp written) (stageChunks fails tmp maxBytes stream written)
      (fun data => Staged cfg tmp data) (fun _ => Sound cfg) (Sound cfg) := by
  have hweak (written : Bytes) : ∀ d, Staged cfg tmp written d → Sound cfg d := fun _ hd => hd.1
  induction stream generalizing written with
  | nil => exact ((keeps_performIo _).triple (hweak _)).bind fun _ => triple_ret fun _ hs => hs
  | cons chunk rest ih =>
    rw [stageChunks]
    refine ((keeps_performIo _).triple (hweak _)).bind fun _ => ?_
    split
    · exact triple_ret fun _ hs => hs
    · refine ((keeps_failIf _ _).triple (hweak _)).bind fun _ => ?_
      refine ((keeps_performIo _).triple (hweak _)).bind fun _ => ?_
      refine (triple_step (Q := fun _ => Staged cfg tmp (written ++ chunk)) fun d hd => ?_).bind
        fun _ => ih _
      have hsound : Sound cfg { d with staging := d.staging.modify tmp (· ++ chunk) } :=
        ⟨hd.1.hashed, hd.1.keyed⟩
      refine ⟨hsound, hsound, ?_⟩
      rw [Dict.get?_modify, if_pos rfl, hd.2]
      rfl

theorem replaceObject_sound (tmp : String) (data : Bytes)
    (hvalid : validateHash (cfg.sha256 data) = .ok (cfg.sha256 data)) :
    Triple (Staged cfg tmp data) (replaceObject tmp (cfg.sha256 data)) (fun _ => Sound cfg)
      (fun _ => Sound cfg) (Sound cfg) := by
  unfold replaceObject
  refine Triple.bind (Q := fun staged d => staged = some data ∧ Sound cfg d)
    (triple_read fun d hd => ⟨hd.2, hd.1⟩) fun staged => ?_
  cases staged with
  | none => exact triple_raise fun d hd => hd.2
  | some bytes =>
    refine triple_step fun d ⟨heq, hd⟩ => ?_
    obtain rfl := Option.some.inj heq
    have hsound : Sound cfg { d with
        objects := d.objects.set (cfg.sha256 bytes) bytes, staging := d.staging.erase tmp } := by
      refine ⟨fun h data hget => ?_, hd.keyed⟩
      rw [Dict.get?_set] at hget
      split at hget
      case isTrue heq =>
        obtain rfl := Option.some.inj hget
        obtain rfl := heq
        exact ⟨hvalid, rfl⟩
      case isFalse => exact hd.hashed h data hget
    exact ⟨hsound, hsound⟩

/-- Whatever a write does after it staged and checked the bytes, objects hold what their names
say. -/
theorem keeps_stageObject (tmp : String) (stream : List Bytes) (expectedSha256 : Option String)
    (expectedSize : Option ℕ) (maxBytes : Option ℤ) {onValidated : ℕ → String → CacheProg Unit}
    (hon : ∀ I, Stable I → ∀ size h, Keeps I (onValidated size h)) :
    Keeps (Sound cfg)
      (stageObject cfg fails tmp stream expectedSha256 expectedSize maxBytes onValidated) := by
  unfold stageObject
  refine Keeps.bind (keeps_performIo _) fun _ => ?_
  refine Triple.bind (Q := fun _ => Staged cfg tmp []) (triple_step fun d hd => ?_) fun _ => ?_
  · have hsound : Sound cfg { d with staging := d.staging.set tmp [] } := ⟨hd.hashed, hd.keyed⟩
    exact ⟨hsound, hsound, by rw [Dict.get?_set, if_pos rfl]⟩
  refine (stageChunks_staged tmp maxBytes stream []).bind fun data => ?_
  have hweak : ∀ d, Staged cfg tmp data d → Sound cfg d := fun _ hd => hd.1
  refine ((keeps_checkHash _ _).triple hweak).bind fun _ => ?_
  refine ((keeps_checkSize _ _).triple hweak).bind fun _ => ?_
  refine ((hon _ stable_staged _ _).triple hweak).bind fun _ => ?_
  cases hvalid : validateHash (cfg.sha256 data) with
  | error e =>
    rw [lift_error_bind]
    exact triple_raise fun d hd => hd.1
  | ok n =>
    obtain rfl := eq_of_valid hvalid
    rw [lift_ok_bind]
    refine ((keeps_performIo _).triple hweak).bind fun _ => ?_
    refine ((keeps_performIo _).triple hweak).bind fun _ => ?_
    exact (replaceObject_sound tmp data hvalid).bind fun _ => keeps_ret _

theorem keeps_writeStream (tmp : String) (stream : List Bytes) (expectedSha256 : Option String)
    (expectedSize : Option ℕ) (maxBytes : Option ℤ) {onValidated : ℕ → String → CacheProg Unit}
    (hon : ∀ I, Stable I → ∀ size h, Keeps I (onValidated size h)) :
    Keeps (Sound cfg)
      (writeStream cfg fails tmp stream expectedSha256 expectedSize maxBytes onValidated) := by
  unfold writeStream
  refine Keeps.bind (keeps_performIo _) fun _ => ?_
  refine (keeps_stageObject _ _ _ _ _ hon).attempt.bind fun written => ?_
  cases written with
  | ok _ => exact keeps_ret _
  | error e =>
    refine Keeps.bind ?_ fun _ => keeps_raise _
    refine (keeps_read _).bind fun staged => ?_
    split
    · exact keeps_step fun d hd => ⟨hd.hashed, hd.keyed⟩
    · exact keeps_ret _

/-- The row that is made belongs to a hash. -/
theorem keeps_storeEntry (sizeBytes : ℕ) (h : String) :
    Keeps (Sound cfg) (storeEntry cfg fails sizeBytes h) := by
  unfold storeEntry
  have hclock : Keeps (Sound cfg) (readClock cfg) :=
    keeps_quietly fun d hd => stable_sound.readings d _ hd
  cases hvalid : validateHash h with
  | error e =>
    rw [lift_error_bind]
    exact keeps_raise e
  | ok n =>
    rw [lift_ok_bind]
    refine hclock.bind fun createdAt => hclock.bind fun accessedAt => ?_
    refine (keeps_failIf _ _).bind fun _ => ?_
    refine Keeps.bind (keeps_step fun d hd => ⟨hd.hashed, fun h' entry hget => ?_⟩) fun _ =>
      keeps_ret _
    rw [Dict.get?_set, lowerText_of_valid hvalid] at hget
    split at hget
    case isTrue heq =>
      obtain rfl := eq_of_valid hvalid
      obtain rfl := heq
      exact hvalid
    case isFalse => exact hd.keyed h' entry hget

theorem keeps_putBytes (tmp : String) (data : Bytes) (sha256 : Option String) :
    Keeps (Sound cfg) (putBytes cfg locked fails tmp data sha256) := by
  unfold putBytes
  refine (keeps_checkHash _ _).bind fun _ => (keeps_checkValid _).bind fun isValid => ?_
  split
  · exact (stable_sound.keeps_touch _).bind fun _ => keeps_read _
  · exact (stable_sound.keeps_enforceQuota _).bind fun _ =>
      (keeps_writeStream _ _ _ _ _ fun _ _ _ _ => keeps_ret _).bind fun _ => keeps_storeEntry _ _

theorem keeps_ingest (sha256 : Option String) {write : CacheProg (ℕ × String)}
    (hwrite : Keeps (Sound cfg) write) : Keeps (Sound cfg) (ingest cfg fails sha256 write) := by
  unfold ingest
  refine (keeps_checkKnown _).bind fun known => ?_
  split
  · exact (stable_sound.keeps_touch _).bind fun _ => keeps_read _
  · refine hwrite.attempt.bind fun written => ?_
    split
    · exact keeps_storeEntry _ _
    · exact keeps_ret _
    · exact keeps_raise _

theorem keeps_writeValidated (tmp : String) (stream : List Bytes) (expectedSha256 : Option String)
    (expectedSize : Option ℕ) (maxBytes : Option ℤ) :
    Keeps (Sound cfg) (writeStream cfg fails tmp stream expectedSha256 expectedSize maxBytes
      (onValidated cfg locked)) :=
  keeps_writeStream _ _ _ _ _ fun _ hI => hI.keeps_onValidated

/-! ## Operations and crashes -/

/-- A call of an operation, with the name of its staging file where it has one. -/
inductive Operation
  | putBytes (tmp : String) (data : Bytes) (sha256 : Option String)
  | putFile (tmp : String) (source : Option (ℕ × List Bytes)) (sha256 : Option String)
  | putStream (tmp : String) (stream : List Bytes) (sizeBytes : Option ℕ) (sha256 : Option String)
  | access (sha256 : String)
  | remove (sha256 : String)
  | evictLru (targetBytesToFree : ℤ)
  | verify (sha256 : String) (deepCheck : Bool)
  | verifyAll (autoEvict : Bool)
  | reconcile (verifyHashes : Bool)

/-- The program of a call. -/
def Operation.prog (cfg : CacheConfig) (locked : String → Bool) (fails : IoCall → Bool) :
    Operation → CacheProg Unit
  | .putBytes tmp data sha256 => do
    let _ ← Cache.putBytes cfg locked fails tmp data sha256
  | .putFile tmp source sha256 => do
    let _ ← Cache.putFile cfg locked fails tmp source sha256
  | .putStream tmp stream sizeBytes sha256 => do
    let _ ← Cache.putStream cfg locked fails tmp stream sizeBytes sha256
  | .access sha256 => do
    let _ ← Cache.access cfg sha256
  | .remove sha256 => do
    let _ ← Cache.remove locked sha256
  | .evictLru target => do
    let _ ← Cache.evictLru cfg locked target
  | .verify sha256 deepCheck => do
    let _ ← Cache.verify cfg locked sha256 deepCheck
  | .verifyAll autoEvict => do
    let _ ← Cache.verifyAll cfg locked autoEvict
  | .reconcile verifyHashes => do
    let _ ← Cache.reconcile cfg locked verifyHashes

/-- The disks that operations leave which crashes stop, any number of times, from an empty cache. -/
inductive Reachable (cfg : CacheConfig) : CacheDisk → Prop
  | empty : Reachable cfg {}
  | call {d d' : CacheDisk} (locked : String → Bool) (fails : IoCall → Bool) (op : Operation)
      (hd : Reachable cfg d) (hleaves : (op.prog cfg locked fails).Leaves d d') : Reachable cfg d'

/-- Every operation keeps objects sound. -/
theorem keeps_prog (op : Operation) : Keeps (Sound cfg) (op.prog cfg locked fails) := by
  cases op with
  | putBytes tmp data sha256 => exact (keeps_putBytes _ _ _).bind fun _ => keeps_ret _
  | putFile tmp source sha256 =>
    refine Keeps.bind ?_ fun _ => keeps_ret _
    cases source with
    | none => exact keeps_raise _
    | some source =>
      exact keeps_ingest _ (Keeps.bind (keeps_performIo _) fun _ => keeps_writeValidated _ _ _ _ _)
  | putStream tmp stream sizeBytes sha256 =>
    exact (keeps_ingest _ (keeps_writeValidated _ _ _ _ _)).bind fun _ => keeps_ret _
  | access sha256 => exact (stable_sound.keeps_access _).bind fun _ => keeps_ret _
  | remove sha256 => exact (stable_sound.keeps_remove _).bind fun _ => keeps_ret _
  | evictLru target => exact (stable_sound.keeps_evictToFree _).bind fun _ => keeps_ret _
  | verify sha256 deepCheck =>
    exact (stable_sound.keeps_verifyEntryLocked _ _ _).bind fun _ => keeps_ret _
  | verifyAll autoEvict => exact (stable_sound.keeps_verifyAll _).bind fun _ => keeps_ret _
  | reconcile verifyHashes => exact (stable_sound.keeps_reconcile _).bind fun _ => keeps_ret _

/-- **Every reachable disk is sound.** -/
theorem Reachable.sound (hd : Reachable cfg d) : Sound cfg d := by
  induction hd with
  | empty => exact ⟨by rintro _ _ ⟨⟩, by rintro _ _ ⟨⟩⟩
  | call locked fails op _ hleaves ih => exact (keeps_prog op).leaves ih hleaves

theorem getEntry_of_valid {n : String} (hv : validateHash h = .ok n) :
    getEntry d h = d.entries.get? h := by
  rw [getEntry, lowerText_of_valid hv]

theorem objectExists_of_valid (hv : validateHash h = .ok h) :
    objectExists d h = (d.objects.get? h).isSome := by
  rw [objectExists, hv]

theorem getSize_of_valid {data : Bytes} (hv : validateHash h = .ok h)
    (hdata : d.objects.get? h = some data) : getSize d h = .ok data.length := by
  simp only [getSize, hv, hdata]

theorem isCacheValid_of_valid (hv : validateHash h = .ok h) :
    isCacheValid d h = .ok true ↔ ∃ entry data, d.entries.get? h = some entry ∧
      entry.state = .valid ∧ d.objects.get? h = some data ∧ data.length = entry.sizeBytes := by
  simp only [isCacheValid, hv, getEntry_of_valid hv, objectExists_of_valid hv]
  cases hentry : d.entries.get? h with
  | none => simp
  | some entry =>
    cases hdata : d.objects.get? h with
    | none => simp
    | some data =>
      by_cases hstate : entry.state = .valid
      · simp [hstate, getSize_of_valid hv hdata, Except.map]
      · simp [hstate]

/-- **A valid object exists, and its content hashes to its name.** -/
theorem exists_data_of_isCacheValid (hd : Sound cfg d) (h : String)
    (hvalid : isCacheValid d h = .ok true) :
    ∃ data, d.objects.get? h = some data ∧ cfg.sha256 data = h := by
  cases hv : validateHash h with
  | error e => simp [isCacheValid, hv] at hvalid
  | ok n =>
    obtain rfl := eq_of_valid hv
    obtain ⟨entry, data, -, -, hdata, -⟩ := (isCacheValid_of_valid hv).mp hvalid
    exact ⟨data, hdata, (hd.hashed n data hdata).2⟩

end Aidars.Cache
