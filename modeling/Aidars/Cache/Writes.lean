import Aidars.Cache.Runs

/-!
# Writes to the disk cache

A write stages what a stream gives, checks it, asks whether to go on, and renames the staging file.
`run_writeStream` says what a whole run leaves: after an error the disk is as the question left it,
up to a staging file that could not be removed.

The question, and the eviction that it may lead to, never look at the staging files
(`IgnoresStaging`), so that it comes to the same before the bytes are staged and after.
-/

namespace Aidars.Cache

open Prog

variable {cfg : CacheConfig} {locked : String → Bool} {fails : IoCall → Bool} {d d' : CacheDisk}
  {h tmp : String} {α β : Type}

/-! ## Programs that ignore staging files -/

/-- The disk with other staging files. -/
def withStaging (d : CacheDisk) (staging : Dict String Bytes) : CacheDisk := { d with staging }

/-- Staging files make no difference to a program, nor a program to them. -/
def IgnoresStaging (m : CacheProg α) : Prop := ∀ s, Commutes (withStaging · s) m

namespace IgnoresStaging

theorem bind {m : CacheProg α} {k : α → CacheProg β} (hm : IgnoresStaging m)
    (hk : ∀ a, IgnoresStaging (k a)) : IgnoresStaging (m >>= k) :=
  fun s => (hm s).bind fun a => hk a s

theorem attempt {m : CacheProg α} (hm : IgnoresStaging m) : IgnoresStaging (attempt m) :=
  fun s => (hm s).attempt

theorem ret (a : α) : IgnoresStaging (pure a : CacheProg α) := fun _ => commutes_ret a

theorem raise (e : CacheError) : IgnoresStaging (raise e : CacheProg α) := fun _ => commutes_raise e

theorem lift (r : Except CacheError α) : IgnoresStaging (lift r : CacheProg α) :=
  fun _ => commutes_lift r

theorem failIf (c : Prop) [Decidable c] (e : CacheError) :
    IgnoresStaging (failIf c e : CacheProg Unit) := fun _ => commutes_failIf c e

theorem read {f : CacheDisk → α} (hf : ∀ d s, f (withStaging d s) = f d) :
    IgnoresStaging (read f : CacheProg α) := fun s => commutes_read fun d => hf d s

theorem step {f : CacheDisk → CacheDisk} (hf : ∀ d s, f (withStaging d s) = withStaging (f d) s) :
    IgnoresStaging (step f : CacheProg Unit) := fun s => commutes_step fun d => hf d s

/-- The staging files are what they were. -/
theorem staging_eq {m : CacheProg α} (hm : IgnoresStaging m) (d : CacheDisk) :
    (m.run d).2.staging = d.staging :=
  congrArg (fun r => r.2.staging) (hm d.staging d)

theorem run {m : CacheProg α} (hm : IgnoresStaging m) (d : CacheDisk) (s : Dict String Bytes) :
    m.run (withStaging d s) = ((m.run d).1, withStaging (m.run d).2 s) :=
  hm s d

end IgnoresStaging

theorem ignoresStaging_touch (h : String) : IgnoresStaging (touch cfg h) :=
  IgnoresStaging.bind (fun _ => commutes_quietly fun _ => rfl) fun _ => .step fun _ _ => rfl

theorem ignoresStaging_updateStatus (h : String) (status : CacheState) :
    IgnoresStaging (updateStatus h status) := by
  unfold updateStatus
  refine (IgnoresStaging.read fun _ _ => rfl).bind fun entry => ?_
  cases entry with
  | none => exact .ret _
  | some entry =>
    exact (IgnoresStaging.failIf _ _).bind fun _ =>
      (IgnoresStaging.step fun _ _ => rfl).bind fun _ => .ret _

theorem ignoresStaging_removeEntry (h : String) : IgnoresStaging (removeEntry h) :=
  (IgnoresStaging.read fun _ _ => rfl).bind fun _ =>
    (IgnoresStaging.step fun _ _ => rfl).bind fun _ => .ret _

theorem ignoresStaging_deleteObject (h : String) : IgnoresStaging (deleteObject locked h) := by
  unfold deleteObject
  refine (IgnoresStaging.lift _).bind fun normHash =>
    (IgnoresStaging.read fun _ _ => rfl).bind fun data => ?_
  split
  · exact .ret _
  · exact (IgnoresStaging.failIf _ _).bind fun _ =>
      (IgnoresStaging.step fun _ _ => rfl).bind fun _ => .ret _

theorem ignoresStaging_evictCandidates (target : ℤ) (candidates : List (String × CacheEntry))
    (freed : ℕ) (progress : Bool) :
    IgnoresStaging (evictCandidates cfg locked target candidates freed progress) := by
  induction candidates generalizing freed progress with
  | nil => exact .ret _
  | cons candidate rest ih =>
    obtain ⟨sha256, entry⟩ := candidate
    rw [evictCandidates]
    split
    · exact .ret _
    · refine (ignoresStaging_updateStatus _ _).attempt.bind fun marked => ?_
      cases marked with
      | error _ => exact ih _ _
      | ok _ =>
        refine (ignoresStaging_deleteObject _).attempt.bind fun deleted => ?_
        cases deleted with
        | error _ =>
          exact (ignoresStaging_updateStatus _ _).bind fun _ =>
            (ignoresStaging_touch _).bind fun _ => ih _ _
        | ok _ => exact (ignoresStaging_removeEntry _).bind fun _ => ih _ _

theorem ignoresStaging_evictBatches (target : ℤ) (fuel freed : ℕ) :
    IgnoresStaging (evictBatches cfg locked target fuel freed) := by
  induction fuel generalizing freed with
  | zero => exact .ret _
  | succ fuel ih =>
    rw [evictBatches]
    split
    · exact .ret _
    · refine (IgnoresStaging.read fun _ _ => rfl).bind fun candidates => ?_
      split
      · exact .ret _
      · refine (ignoresStaging_evictCandidates _ _ _ _).bind fun batch => ?_
        dsimp only
        split
        · exact ih _
        · exact .ret _

theorem ignoresStaging_evictToFree (target : ℤ) :
    IgnoresStaging (evictToFree cfg locked target) := by
  unfold evictToFree
  split
  · exact .ret _
  · exact (IgnoresStaging.read fun _ _ => rfl).bind fun rows => ignoresStaging_evictBatches _ _ _

theorem ignoresStaging_enforceQuota (incomingBytes : ℕ) :
    IgnoresStaging (enforceQuota cfg locked incomingBytes) := by
  unfold enforceQuota
  split
  · exact .ret _
  · split
    · exact .ret _
    · refine (IgnoresStaging.failIf _ _).bind fun _ =>
        (IgnoresStaging.read fun _ _ => rfl).bind fun current => ?_
      split
      · exact .ret _
      · exact (ignoresStaging_evictToFree _).bind fun _ =>
          (IgnoresStaging.read fun _ _ => rfl).bind fun _ =>
            (IgnoresStaging.failIf _ _).bind fun _ => .ret _

theorem ignoresStaging_onValidated (size : ℕ) (h : String) :
    IgnoresStaging (onValidated cfg locked size h) := by
  unfold onValidated checkValid
  refine ((IgnoresStaging.read fun _ _ => rfl).bind fun _ => .lift _).bind fun isValid => ?_
  split
  · exact (ignoresStaging_touch _).bind fun _ =>
      (IgnoresStaging.read fun _ _ => rfl).bind fun _ => .raise _
  · exact (ignoresStaging_enforceQuota _).bind fun _ => .ret _

/-! ## Staging -/

/-- What the reads of a stream give, up to the first empty one. -/
def content : List Bytes → Bytes
  | [] => []
  | chunk :: rest => if chunk.isEmpty then [] else chunk ++ content rest

/-- A result, or the error that comes instead. -/
def ending (a : α) : Option CacheError → Except CacheError α
  | none => .ok a
  | some e => .error e

/-- What keeps a stream from being staged, once some bytes of it are. -/
def stageError (fails : IoCall → Bool) (maxBytes : Option ℤ) :
    List Bytes → ℕ → Option CacheError
  | [], n => if fails (.read n) then some .osError else none
  | chunk :: rest, n =>
    if fails (.read n) then some .osError
    else if chunk.isEmpty then none
    else if ∃ limit ∈ maxBytes, limit < (n + chunk.length : ℤ) then
      some (.streamTooLarge (maxBytes.getD 0))
    else if fails (.write n) then some .osError
    else stageError fails maxBytes rest (n + chunk.length)

/-- What is wrong with a hash, given the one that is expected. -/
def hashError (computedHash : String) : Option String → Option CacheError
  | none => none
  | some expected =>
    match validateHash expected with
    | .error e => some e
    | .ok normExpected =>
      if computedHash ≠ normExpected then some (.hashMismatch computedHash normExpected) else none

/-- What is wrong with a size, given the one that is expected. -/
def sizeError (totalBytes : ℕ) : Option ℕ → Option CacheError
  | none => none
  | some size => if totalBytes ≠ size then some (.sizeMismatch totalBytes size) else none

/-- What keeps a stream from being staged and found as expected. -/
def prepareError (cfg : CacheConfig) (fails : IoCall → Bool) (stream : List Bytes)
    (expectedSha256 : Option String) (expectedSize : Option ℕ) (maxBytes : Option ℤ) :
    Option CacheError :=
  (stageError fails maxBytes stream 0).or
    ((hashError (cfg.sha256 (content stream)) expectedSha256).or
      (sizeError (content stream).length expectedSize))

/-- What keeps a staging file from becoming an object. -/
def commitError (cfg : CacheConfig) (fails : IoCall → Bool) (data : Bytes) : Option CacheError :=
  match validateHash (cfg.sha256 data) with
  | .error e => some e
  | .ok _ => if fails .makeDirectory ∨ fails .replace then some .osError else none

/-- The disk with a staging file. -/
def staged (d : CacheDisk) (tmp : String) (data : Bytes) : CacheDisk :=
  withStaging d (d.staging.set tmp data)

theorem run_performIo_bind {call : IoCall} (hok : fails call = false) (k : Unit → CacheProg α) :
    (performIo fails call >>= k).run d = (k ()).run d :=
  run_failIf_bind (by simp [hok]) k

theorem run_performIo_bind_of_fails {call : IoCall} (hfails : fails call = true)
    (k : Unit → CacheProg α) :
    (performIo fails call >>= k).run d = (.error .osError, d) :=
  run_failIf_bind_of hfails k

/-- **A run that stages a stream.** -/
theorem run_stageChunks (fails : IoCall → Bool) (tmp : String) (maxBytes : Option ℤ)
    (stream : List Bytes) (d : CacheDisk) (written : Bytes) :
    ∃ part,
      (stageChunks fails tmp maxBytes stream written).run (staged d tmp written) =
        (ending (written ++ content stream) (stageError fails maxBytes stream written.length),
          staged d tmp part) ∧
      (stageError fails maxBytes stream written.length = none →
        part = written ++ content stream) := by
  induction stream generalizing written with
  | nil =>
    refine ⟨written, ?_, by simp [content]⟩
    rw [stageChunks, stageError]
    split_ifs with hread
    · rw [run_performIo_bind_of_fails hread, ending]
    · rw [run_performIo_bind (by simpa using hread)]
      simp [ending, content]
  | cons chunk rest ih =>
    rw [stageChunks, stageError, content]
    by_cases hread : fails (.read written.length) = true
    · rw [run_performIo_bind_of_fails hread, if_pos hread]
      exact ⟨written, rfl, by simp⟩
    rw [run_performIo_bind (by simpa using hread), if_neg hread]
    by_cases hempty : chunk.isEmpty = true
    · rw [if_pos hempty, if_pos hempty, if_pos hempty]
      exact ⟨written, by simp [ending], by simp⟩
    rw [if_neg hempty, if_neg hempty, if_neg hempty]
    by_cases hlimit : ∃ limit ∈ maxBytes, limit < (written.length + chunk.length : ℤ)
    · rw [run_failIf_bind_of hlimit, if_pos hlimit]
      exact ⟨written, rfl, by simp⟩
    rw [run_failIf_bind hlimit, if_neg hlimit]
    by_cases hwrite : fails (.write written.length) = true
    · rw [run_performIo_bind_of_fails hwrite, if_pos hwrite]
      exact ⟨written, rfl, by simp⟩
    rw [run_performIo_bind (by simpa using hwrite), if_neg hwrite, run_step_bind]
    have hstep : ({ staged d tmp written with
        staging := (staged d tmp written).staging.modify tmp (· ++ chunk) } : CacheDisk) =
        staged d tmp (written ++ chunk) :=
      congrArg (fun staging => { d with staging }) (Dict.modify_set _ _ _ _)
    have hnext := ih (written ++ chunk)
    rw [List.length_append, List.append_assoc] at hnext
    rw [hstep]
    exact hnext

/-! ## Writing -/

theorem run_checkHash (computedHash : String) (expected : Option String) :
    (checkHash computedHash expected).run d = (ending () (hashError computedHash expected), d) := by
  cases expected with
  | none => rfl
  | some expected =>
    rw [checkHash, hashError]
    cases hv : validateHash expected with
    | error e => rfl
    | ok normExpected =>
      rw [lift_ok_bind]
      dsimp only
      unfold failIf
      split_ifs <;> rfl

theorem run_checkSize (totalBytes : ℕ) (expected : Option ℕ) :
    (checkSize totalBytes expected).run d = (ending () (sizeError totalBytes expected), d) := by
  cases expected with
  | none => rfl
  | some size =>
    rw [checkSize, sizeError]
    unfold failIf
    split_ifs <;> rfl

/-- The rest of a write, once the stream is staged and found as expected. -/
def commit (cfg : CacheConfig) (fails : IoCall → Bool) (tmp : String) (data : Bytes)
    (onValidated : ℕ → String → CacheProg Unit) : CacheProg (ℕ × String) := do
  onValidated data.length (cfg.sha256 data)
  let normHash ← lift (validateHash (cfg.sha256 data))
  performIo fails .makeDirectory
  performIo fails .replace
  replaceObject tmp normHash
  return (data.length, cfg.sha256 data)

section

variable {stream : List Bytes} {expectedSha256 : Option String} {expectedSize : Option ℕ}
  {maxBytes : Option ℤ} {onValidated : ℕ → String → CacheProg Unit}

/-- A stream is staged and as expected, or the staging file is left with the error. -/
theorem run_stageObject (hopen : fails .openStaging = false) :
    ∃ part, (stageObject cfg fails tmp stream expectedSha256 expectedSize maxBytes
      onValidated).run d =
        match prepareError cfg fails stream expectedSha256 expectedSize maxBytes with
        | some e => (.error e, staged d tmp part)
        | none => (commit cfg fails tmp (content stream) onValidated).run
            (staged d tmp (content stream)) := by
  obtain ⟨part, hrun, hpart⟩ := run_stageChunks fails tmp maxBytes stream d []
  rw [List.nil_append, List.length_nil] at hrun hpart
  refine ⟨part, ?_⟩
  rw [stageObject, run_performIo_bind hopen, run_step_bind, prepareError]
  change (stageChunks fails tmp maxBytes stream [] >>= _).run (staged d tmp []) = _
  cases hstage : stageError fails maxBytes stream 0 with
  | some e =>
    rw [hstage] at hrun
    exact run_bind_error hrun _
  | none =>
    obtain rfl := hpart hstage
    rw [hstage] at hrun
    rw [run_bind_ok hrun]
    have hhash : (checkHash (cfg.sha256 (content stream)) expectedSha256).run
        (staged d tmp (content stream)) = _ := run_checkHash _ _
    cases herror : hashError (cfg.sha256 (content stream)) expectedSha256 with
    | some e =>
      rw [herror] at hhash
      exact run_bind_error hhash _
    | none =>
      rw [herror] at hhash
      rw [run_bind_ok hhash]
      have hsize : (checkSize (content stream).length expectedSize).run
          (staged d tmp (content stream)) = _ := run_checkSize _ _
      cases herror' : sizeError (content stream).length expectedSize with
      | some e =>
        rw [herror'] at hsize
        exact run_bind_error hsize _
      | none =>
        rw [herror'] at hsize
        rw [run_bind_ok hsize]
        rfl

/-- What is left of a staging file after an error. -/
def leave (fails : IoCall → Bool) (tmp : String) (part : Bytes) (d : CacheDisk) : CacheDisk :=
  if fails .unlink then staged d tmp part else d

theorem run_unstage {part : Bytes} (hfresh : d.staging.get? tmp = none) :
    (unstage fails tmp).run (staged d tmp part) = (.ok (), leave fails tmp part d) := by
  have hget : (staged d tmp part).staging.get? tmp = some part := by
    simp [staged, withStaging]
  rw [unstage, run_read_bind, hget, leave]
  cases hunlink : fails .unlink with
  | true => simp
  | false =>
    rw [if_pos (by simp), if_neg (by simp)]
    have herase : (d.staging.set tmp part).erase tmp = d.staging := by
      rw [Dict.erase_set, Dict.erase_of_none hfresh]
    exact congrArg (fun staging => (Except.ok (), { d with staging })) herase

/-- The disk with an object. -/
def addObject (d : CacheDisk) (h : String) (data : Bytes) : CacheDisk :=
  { d with objects := d.objects.set h data }

theorem run_replaceObject {data : Bytes} (hfresh : d.staging.get? tmp = none) :
    (replaceObject tmp h).run (staged d tmp data) = (.ok (), addObject d h data) := by
  have hget : (staged d tmp data).staging.get? tmp = some data := by
    simp [staged, withStaging]
  have herase : (d.staging.set tmp data).erase tmp = d.staging := by
    rw [Dict.erase_set, Dict.erase_of_none hfresh]
  rw [replaceObject, run_read_bind, hget]
  exact congrArg (fun staging => (Except.ok (), { addObject d h data with staging })) herase

/-- The question, and then the rename. -/
theorem run_commit {data : Bytes} (hfresh : d.staging.get? tmp = none)
    (hignore : IgnoresStaging (onValidated data.length (cfg.sha256 data))) :
    (commit cfg fails tmp data onValidated).run (staged d tmp data) =
      match (onValidated data.length (cfg.sha256 data)).run d with
      | (.error e, d') => (.error e, staged d' tmp data)
      | (.ok _, d') =>
        match commitError cfg fails data with
        | some e => (.error e, staged d' tmp data)
        | none => (.ok (data.length, cfg.sha256 data), addObject d' (cfg.sha256 data) data) := by
  have hstaging := hignore.staging_eq d
  have hrun : (onValidated data.length (cfg.sha256 data)).run (staged d tmp data) = _ :=
    hignore.run d _
  rw [commit]
  rcases hr : (onValidated data.length (cfg.sha256 data)).run d with ⟨e | _, d'⟩
  · rw [hr] at hrun hstaging
    rw [run_bind_error hrun]
    change _ = (Except.error e, withStaging d' (d'.staging.set tmp data))
    rw [hstaging]
  · rw [hr] at hrun hstaging
    have hstaged : withStaging d' (d.staging.set tmp data) = staged d' tmp data := by
      rw [staged, hstaging]
    have hfresh' : d'.staging.get? tmp = none := by
      rw [hstaging]
      exact hfresh
    rw [run_bind_ok hrun]
    change (lift (validateHash (cfg.sha256 data)) >>= _).run (withStaging d' _) = _
    rw [hstaged]
    dsimp only [commitError]
    cases hv : validateHash (cfg.sha256 data) with
    | error e => rfl
    | ok normHash =>
      obtain rfl : normHash = cfg.sha256 data := eq_of_valid hv
      rw [lift_ok_bind]
      cases hmake : fails .makeDirectory with
      | true =>
        rw [run_performIo_bind_of_fails hmake]
        rfl
      | false =>
        rw [run_performIo_bind hmake]
        cases hreplace : fails .replace with
        | true =>
          rw [run_performIo_bind_of_fails hreplace]
          rfl
        | false =>
          rw [run_performIo_bind hreplace, run_bind_ok (run_replaceObject hfresh'), run_pure]
          rfl

/-- **A run of a write.** -/
theorem run_writeStream (hfresh : d.staging.get? tmp = none)
    (hignore : ∀ size h, IgnoresStaging (onValidated size h)) :
    ∃ part, (writeStream cfg fails tmp stream expectedSha256 expectedSize maxBytes
      onValidated).run d =
        if fails .ensureDirectories ∨ fails .openStaging then (.error .osError, d)
        else match prepareError cfg fails stream expectedSha256 expectedSize maxBytes with
        | some e => (.error e, leave fails tmp part d)
        | none =>
          match (onValidated (content stream).length (cfg.sha256 (content stream))).run d with
          | (.error e, d') => (.error e, leave fails tmp part d')
          | (.ok _, d') =>
            match commitError cfg fails (content stream) with
            | some e => (.error e, leave fails tmp part d')
            | none => (.ok ((content stream).length, cfg.sha256 (content stream)),
                addObject d' (cfg.sha256 (content stream)) (content stream)) := by
  rw [writeStream]
  cases hensure : fails .ensureDirectories with
  | true => exact ⟨[], by simp [run_performIo_bind_of_fails hensure]⟩
  | false =>
    rw [run_performIo_bind hensure]
    cases hopen : fails .openStaging with
    | true =>
      have hstage : (stageObject cfg fails tmp stream expectedSha256 expectedSize maxBytes
          onValidated).run d = (.error .osError, d) := run_performIo_bind_of_fails hopen _
      have hunstage : (unstage fails tmp).run d = (.ok (), d) := by
        rw [unstage, run_read_bind, hfresh, if_neg (by simp), run_pure]
      refine ⟨[], ?_⟩
      rw [run_bind_ok (run_attempt hstage)]
      dsimp only
      rw [run_bind_ok hunstage, run_raise, if_pos (.inr rfl)]
    | false =>
      obtain ⟨part, hstage⟩ : ∃ part, (stageObject cfg fails tmp stream expectedSha256
        expectedSize maxBytes onValidated).run d = _ := run_stageObject hopen
      simp only [Bool.false_eq_true, or_self, if_false]
      cases herror : prepareError cfg fails stream expectedSha256 expectedSize maxBytes with
      | some e =>
        rw [herror] at hstage
        refine ⟨part, ?_⟩
        rw [run_bind_ok (run_attempt hstage)]
        dsimp only
        rw [run_bind_ok (run_unstage hfresh), run_raise]
      | none =>
        rw [herror] at hstage
        dsimp only at hstage
        rw [run_commit hfresh (hignore _ _)] at hstage
        refine ⟨content stream, ?_⟩
        have hstaging :=
          (hignore (content stream).length (cfg.sha256 (content stream))).staging_eq d
        have hget := congrArg (·.get? tmp) hstaging
        rcases hr : (onValidated (content stream).length (cfg.sha256 (content stream))).run d with
          ⟨e | _, d'⟩
        · rw [hr] at hstage hget
          rw [run_bind_ok (run_attempt hstage)]
          dsimp only
          rw [run_bind_ok (run_unstage (hget.trans hfresh)), run_raise]
        · rw [hr] at hstage hget
          cases hcommit : commitError cfg fails (content stream) with
          | some e =>
            rw [hcommit] at hstage
            rw [run_bind_ok (run_attempt hstage)]
            dsimp only
            rw [run_bind_ok (run_unstage (hget.trans hfresh)), run_raise]
          | none =>
            rw [hcommit] at hstage
            rw [run_bind_ok (run_attempt hstage)]
            rfl

end

/-! ## Rows -/

/-- The row that is made of an object. -/
def storedRow (cfg : CacheConfig) (d : CacheDisk) (sizeBytes : ℕ) (h : String) : CacheEntry :=
  match d.entries.get? h with
  | some old =>
    { sizeBytes, createdAt := old.createdAt, lastAccessedAt := cfg.clock (d.readings + 1),
      accessCount := old.accessCount + 1 }
  | none =>
    { sizeBytes, createdAt := cfg.clock d.readings, lastAccessedAt := cfg.clock (d.readings + 1) }

/-- The disk with the row of an object. -/
def addRow (cfg : CacheConfig) (d : CacheDisk) (sizeBytes : ℕ) (h : String) : CacheDisk :=
  { d with
    entries := d.entries.set h (storedRow cfg d sizeBytes h)
    readings := d.readings + 2 }

@[simp] theorem storedRow_sizeBytes (sizeBytes : ℕ) :
    (storedRow cfg d sizeBytes h).sizeBytes = sizeBytes := by
  unfold storedRow
  split <;> rfl

@[simp] theorem storedRow_state (sizeBytes : ℕ) : (storedRow cfg d sizeBytes h).state = .valid := by
  unfold storedRow
  split <;> rfl

theorem run_storeEntry (hv : validateHash h = .ok h) (sizeBytes : ℕ) :
    ∃ entry, (storeEntry cfg fails sizeBytes h).run d =
      if fails .insertRow then (.error .rowRefused, { d with readings := d.readings + 2 })
      else (.ok (some entry), addRow cfg d sizeBytes h) := by
  have hlow := lowerText_of_valid hv
  refine ⟨⟨sizeBytes, .valid, cfg.clock d.readings, cfg.clock (d.readings + 1), 1⟩, ?_⟩
  have hclock : ∀ d, (readClock cfg).run d =
      (.ok (cfg.clock d.readings), { d with readings := d.readings + 1 }) := fun _ => rfl
  rw [storeEntry, hv, lift_ok_bind, run_bind_ok (hclock d), run_bind_ok (hclock _)]
  dsimp only
  split_ifs with hrefused
  · rw [run_failIf_bind_of hrefused]
  · rewrite [run_failIf_bind hrefused, putEntry, run_step_bind, run_pure, hlow,
      getEntry_of_lower hlow, addRow, storedRow]
    cases d.entries.get? h <;> rfl

end Aidars.Cache
