import Aidars.Foundations.Collections
import Aidars.Foundations.Crash
import Aidars.Foundations.FileTree
import Aidars.Models.Validation
import Mathlib.Algebra.Order.Field.Rat
import Mathlib.Data.List.Sort

/-!
# The disk cache

`DiskCacheStore` keeps objects on disk under their hashes and a row of metadata for each in a
database. Its operations are programs over both, in steps that a crash can come between: a write of
a staging file, the rename that makes it an object, the removal of a file, a committed statement of
the database. An object file that is locked cannot be removed, and the removal raises.
-/

namespace Aidars.Cache

/-- The states of a row. -/
inductive CacheState
  | absent
  | transferring
  | verifying
  | valid
  | corrupted
  | evicting
  deriving DecidableEq

/-- What the cache keeps in a row. -/
structure CacheEntry where
  sizeBytes : ℕ
  state : CacheState := .valid
  createdAt : ℚ
  lastAccessedAt : ℚ
  accessCount : ℕ := 1
  deriving DecidableEq

/-- What is on disk: object files, staging files and rows. `readings` counts how often the clock was
read. -/
structure CacheDisk where
  objects : Dict String Bytes := ∅
  staging : Dict String Bytes := ∅
  entries : Dict String CacheEntry := ∅
  readings : ℕ := 0
  deriving DecidableEq

/-- The errors of the cache. -/
inductive CacheError
  | invalidHash (sha256 : String)
  | hashMismatch (computed expected : String)
  | quotaExceeded (incomingBytes : ℕ)
  | notFound (sha256 : String)
  | locked (sha256 : String)
  | streamTooLarge (maxBytes : ℤ)
  | sizeMismatch (totalBytes expectedSize : ℕ)
  | sourceNotFound
  | invalidTransition (current status : CacheState)
  | duplicateFound (entry : Option CacheEntry)
  | osError
  | rowRefused
  deriving DecidableEq

/-- The calls of the file system in the operations that store an object, and the insertion of its
row, which is refused when a name cannot be encoded or the metadata is no JSON. A read or a write of
the staging file is named by its offset. -/
inductive IoCall
  | openSource
  | ensureDirectories
  | openStaging
  | read (offset : ℕ)
  | write (offset : ℕ)
  | makeDirectory
  | replace
  | unlink
  | insertRow
  deriving DecidableEq

/-- A program of the cache. -/
abbrev CacheProg := Prog CacheDisk CacheError

/-- The lowercase hex digest of bytes, the readings of the clock, the quota, and the order in which
a set is gone through. -/
structure CacheConfig where
  sha256 : Bytes → String
  clock : ℕ → ℚ
  maxCacheSizeBytes : Option ℤ
  setOrder : List String → List String
  setOrder_perm : ∀ l, (setOrder l).Perm l

open Prog

variable (cfg : CacheConfig) (locked : String → Bool)

/-! ## The files -/

/-- `str.lower` -/
def lowerText (s : String) : String := String.ofList (lower s.toList)

/-- Validate a hash by the pattern `^[0-9a-f]{64}$`. -/
def validateHash (sha256 : String) : Except CacheError String :=
  if matchRepeat isLowerHexDigit 64 64 sha256.toList then .ok (lowerText sha256)
  else .error (.invalidHash sha256)

/-- The object file exists. -/
def objectExists (d : CacheDisk) (sha256 : String) : Bool :=
  match validateHash sha256 with
  | .ok normHash => (d.objects.get? normHash).isSome
  | .error _ => false

/-- The size of an object file. -/
def getSize (d : CacheDisk) (sha256 : String) : Except CacheError ℕ :=
  match validateHash sha256 with
  | .ok normHash =>
    match d.objects.get? normHash with
    | some data => .ok data.length
    | none => .error (.notFound sha256)
  | .error e => .error e

/-- Remove an object file. -/
def deleteObject (sha256 : String) : CacheProg Bool := do
  let normHash ← lift (validateHash sha256)
  let data ← read (·.objects.get? normHash)
  if data.isNone then return false
  else
    failIf (locked normHash = true) (.locked sha256)
    step fun d => { d with objects := d.objects.erase normHash }
    return true

/-! ## The index -/

/-- Read the clock. -/
def readClock : CacheProg ℚ :=
  quietly fun d => (cfg.clock d.readings, { d with readings := d.readings + 1 })

/-- The row of a hash. -/
def getEntry (d : CacheDisk) (sha256 : String) : Option CacheEntry :=
  d.entries.get? (lowerText sha256)

/-- Insert a row, or update it except for the time when it was made. An update counts as an
access. -/
def putEntry (sha256 : String) (entry : CacheEntry) : CacheProg Unit :=
  step fun d =>
    let row := match getEntry d sha256 with
      | some old =>
        { entry with createdAt := old.createdAt, accessCount := old.accessCount + 1 }
      | none => entry
    { d with entries := d.entries.set (lowerText sha256) row }

/-- The row after an access. -/
def CacheEntry.touched (entry : CacheEntry) (accessedAt : ℚ) : CacheEntry :=
  { entry with lastAccessedAt := accessedAt, accessCount := entry.accessCount + 1 }

/-- Note an access. -/
def touch (sha256 : String) : CacheProg Unit := do
  let accessedAt ← readClock cfg
  step fun d => { d with entries := d.entries.modify (lowerText sha256) (·.touched accessedAt) }

/-- Delete a row. -/
def removeEntry (sha256 : String) : CacheProg Bool := do
  let entry ← read (getEntry · sha256)
  step fun d => { d with entries := d.entries.erase (lowerText sha256) }
  return entry.isSome

/-- The states that may follow a state. -/
def validTransitions : CacheState → List CacheState
  | .absent => [.transferring, .verifying]
  | .transferring => [.verifying, .absent]
  | .verifying => [.valid, .corrupted, .absent]
  | .valid => [.evicting, .corrupted, .absent, .verifying]
  | .corrupted => [.absent, .verifying]
  | .evicting => [.absent, .valid]

/-- Change the state of a row. -/
def updateStatus (sha256 : String) (status : CacheState) : CacheProg Bool := do
  match ← read (getEntry · sha256) with
  | none => return false
  | some entry =>
    failIf (status ∉ validTransitions entry.state ∧ entry.state ≠ status)
      (.invalidTransition entry.state status)
    step fun d => { d with
      entries := d.entries.modify (lowerText sha256) ({ · with state := status }) }
    return true

/-- The row that was used least recently comes first. -/
def usedBefore (a b : String × CacheEntry) : Bool :=
  a.2.lastAccessedAt < b.2.lastAccessedAt ||
    a.2.lastAccessedAt = b.2.lastAccessedAt && a.1 ≤ b.1

/-- The rows that were used least recently. -/
def getLruCandidates (d : CacheDisk) (limit : ℕ) : List (String × CacheEntry) :=
  (d.entries.entries.insertionSort (usedBefore · ·)).take limit

/-- All rows, the newest first. -/
def getAllEntries (d : CacheDisk) : List (String × CacheEntry) :=
  d.entries.entries.insertionSort fun a b => b.2.createdAt ≤ a.2.createdAt

/-- The sum of the sizes in all rows. -/
def getTotalSize (d : CacheDisk) : ℕ := (d.entries.values.map (·.sizeBytes)).sum

/-! ## Validity -/

/-- The row of a hash is valid, and its object file exists in the size that the row says. -/
def isCacheValid (d : CacheDisk) (sha256 : String) : Except CacheError Bool :=
  match validateHash sha256 with
  | .error e => .error e
  | .ok normHash =>
    match getEntry d normHash with
    | none => .ok false
    | some entry =>
      if entry.state ≠ .valid then .ok false
      else if objectExists d normHash = false then .ok false
      else (getSize d normHash).map (· = entry.sizeBytes)

/-- Ask whether an object is valid. -/
def checkValid (sha256 : String) : CacheProg Bool := do
  let isValid ← read (isCacheValid · sha256)
  lift isValid

/-! ## Eviction -/

/-- Evict the candidates in turn until enough is freed: the bytes freed, and whether any was
evicted. -/
def evictCandidates (target : ℤ) :
    List (String × CacheEntry) → ℕ → Bool → CacheProg (ℕ × Bool)
  | [], freed, progress => return (freed, progress)
  | (sha256, entry) :: rest, freed, progress => do
    if target ≤ freed then return (freed, progress) else
    match ← attempt (updateStatus sha256 .evicting) with
    | .error _ => evictCandidates target rest freed progress
    | .ok _ =>
      match ← attempt (deleteObject locked sha256) with
      | .error _ =>
        let _ ← updateStatus sha256 entry.state
        touch cfg sha256
        evictCandidates target rest freed progress
      | .ok _ =>
        let _ ← removeEntry sha256
        evictCandidates target rest (freed + entry.sizeBytes) true

/-- Evict batches until enough is freed or a batch evicts nothing. -/
def evictBatches (target : ℤ) : ℕ → ℕ → CacheProg ℕ
  | 0, freed => return freed
  | fuel + 1, freed => do
    if target ≤ freed then return freed
    let candidates ← read (getLruCandidates · 100)
    if candidates.isEmpty then return freed
    let (freed, progress) ← evictCandidates cfg locked target candidates freed false
    if progress then evictBatches target fuel freed else return freed

/-- Evict rows and their files until enough is freed. Each batch but the last deletes a row. -/
def evictToFree (target : ℤ) : CacheProg ℕ := do
  if target ≤ 0 then return 0
  let rows ← read (·.entries.entries.length)
  evictBatches cfg locked target (rows + 1) 0

/-- Make room for an object. -/
def enforceQuota (incomingBytes : ℕ) : CacheProg ℕ :=
  match cfg.maxCacheSizeBytes with
  | none => return 0
  | some quota => do
    if quota ≤ 0 then return 0
    else
      failIf (quota < incomingBytes) (.quotaExceeded incomingBytes)
      let current ← read getTotalSize
      if (current + incomingBytes : ℤ) ≤ quota then return 0
      else
        let freed ← evictToFree cfg locked (current + incomingBytes - quota)
        let new ← read getTotalSize
        failIf (quota < (new + incomingBytes : ℤ)) (.quotaExceeded incomingBytes)
        return freed

/-! ## Writing objects -/

variable (fails : IoCall → Bool)

/-- Raise if a call of the file system fails. -/
def performIo (call : IoCall) : CacheProg Unit := failIf (fails call = true) .osError

/-- Write what the reads of a stream return to a staging file, up to the first empty one: all that
was written. -/
def stageChunks (tmp : String) (maxBytes : Option ℤ) : List Bytes → Bytes → CacheProg Bytes
  | [], written => do
    performIo fails (.read written.length)
    return written
  | chunk :: rest, written => do
    performIo fails (.read written.length)
    if chunk.isEmpty then return written
    failIf (∃ limit ∈ maxBytes, limit < (written.length + chunk.length : ℤ))
      (.streamTooLarge (maxBytes.getD 0))
    performIo fails (.write written.length)
    step fun d => { d with staging := d.staging.modify tmp (· ++ chunk) }
    stageChunks tmp maxBytes rest (written ++ chunk)

/-- Rename a staging file to an object file. -/
def replaceObject (tmp sha256 : String) : CacheProg Unit := do
  match ← read (·.staging.get? tmp) with
  | none => raise (.notFound sha256)
  | some data =>
    step fun d => { d with objects := d.objects.set sha256 data, staging := d.staging.erase tmp }

/-- Compare a hash with the one expected. -/
def checkHash (computedHash : String) : Option String → CacheProg Unit
  | none => return ()
  | some expected => do
    let normExpected ← lift (validateHash expected)
    failIf (computedHash ≠ normExpected) (.hashMismatch computedHash normExpected)

/-- Compare a size with the one expected. -/
def checkSize (totalBytes : ℕ) : Option ℕ → CacheProg Unit
  | none => return ()
  | some size => failIf (totalBytes ≠ size) (.sizeMismatch totalBytes size)

/-- Stage a stream, check it, and make an object of it. -/
def stageObject (tmp : String) (stream : List Bytes) (expectedSha256 : Option String)
    (expectedSize : Option ℕ) (maxBytes : Option ℤ) (onValidated : ℕ → String → CacheProg Unit) :
    CacheProg (ℕ × String) := do
  performIo fails .openStaging
  step fun d => { d with staging := d.staging.set tmp [] }
  let data ← stageChunks fails tmp maxBytes stream []
  checkHash (cfg.sha256 data) expectedSha256
  checkSize data.length expectedSize
  onValidated data.length (cfg.sha256 data)
  let normHash ← lift (validateHash (cfg.sha256 data))
  performIo fails .makeDirectory
  performIo fails .replace
  replaceObject tmp normHash
  return (data.length, cfg.sha256 data)

/-- Remove a staging file if it exists and can be removed. -/
def unstage (tmp : String) : CacheProg Unit := do
  let staged ← read (·.staging.get? tmp)
  if staged.isSome ∧ fails .unlink = false then
    step fun d => { d with staging := d.staging.erase tmp }
  else return ()

/-- Write a stream to an object. After an error the staging file is removed. -/
def writeStream (tmp : String) (stream : List Bytes) (expectedSha256 : Option String)
    (expectedSize : Option ℕ) (maxBytes : Option ℤ) (onValidated : ℕ → String → CacheProg Unit) :
    CacheProg (ℕ × String) := do
  performIo fails .ensureDirectories
  match ← attempt
    (stageObject cfg fails tmp stream expectedSha256 expectedSize maxBytes onValidated) with
  | .ok written => return written
  | .error e =>
    unstage fails tmp
    raise e

/-- Make the row of an object that was written. -/
def storeEntry (sizeBytes : ℕ) (computedHash : String) : CacheProg (Option CacheEntry) := do
  let _ ← lift (validateHash computedHash)
  let createdAt ← readClock cfg
  let lastAccessedAt ← readClock cfg
  let entry : CacheEntry := { sizeBytes, createdAt, lastAccessedAt }
  failIf (fails .insertRow = true) .rowRefused
  putEntry computedHash entry
  return some entry

/-! ## The operations -/

/-- The size of a read. -/
def defaultChunkSize : ℕ := 64 * 1024

/-- The failures of a write that reads from memory. -/
def inMemory : IoCall → Bool
  | .read _ => false
  | call => fails call

/-- Store bytes. -/
def putBytes (tmp : String) (data : Bytes) (sha256 : Option String) :
    CacheProg (Option CacheEntry) := do
  checkHash (cfg.sha256 data) sha256
  if ← checkValid (cfg.sha256 data) then
    touch cfg (cfg.sha256 data)
    read (getEntry · (cfg.sha256 data))
  else
    let _ ← enforceQuota cfg locked data.length
    let (writtenSize, computedHash) ← writeStream cfg (inMemory fails) tmp
      (data.toChunks defaultChunkSize) sha256 (some data.length) none fun _ _ => pure ()
    storeEntry cfg fails writtenSize computedHash

/-- What is done once a stream is hashed: a duplicate ends the write, and otherwise room is made. -/
def onValidated (size : ℕ) (computedHash : String) : CacheProg Unit := do
  if ← checkValid computedHash then
    touch cfg computedHash
    let entry ← read (getEntry · computedHash)
    raise (.duplicateFound entry)
  else
    let _ ← enforceQuota cfg locked size

/-- Ask whether the object that is expected is valid already. An empty text expects none. -/
def checkKnown : Option String → CacheProg Bool
  | none => return false
  | some sha256 => if sha256 = "" then return false else checkValid sha256

/-- Store what a program writes, unless the object that is expected is valid already. -/
def ingest (sha256 : Option String) (write : CacheProg (ℕ × String)) :
    CacheProg (Option CacheEntry) := do
  if ← checkKnown sha256 then
    touch cfg (sha256.getD "")
    read (getEntry · (sha256.getD ""))
  else
    match ← attempt write with
    | .ok (writtenSize, computedHash) => storeEntry cfg fails writtenSize computedHash
    | .error (.duplicateFound entry) => return entry
    | .error e => raise e

/-- Store a file, given its size and what the reads of it return. -/
def putFile (tmp : String) (source : Option (ℕ × List Bytes)) (sha256 : Option String) :
    CacheProg (Option CacheEntry) :=
  match source with
  | none => raise .sourceNotFound
  | some (fileSize, stream) => ingest cfg fails sha256 do
    performIo fails .openSource
    writeStream cfg fails tmp stream sha256 (some fileSize) none (onValidated cfg locked)

/-- Store a stream. -/
def putStream (tmp : String) (stream : List Bytes) (sizeBytes : Option ℕ) (sha256 : Option String) :
    CacheProg (Option CacheEntry) :=
  ingest cfg fails sha256
    (writeStream cfg fails tmp stream sha256 sizeBytes cfg.maxCacheSizeBytes
      (onValidated cfg locked))

/-- Note an access to a valid object, as the operations that read one do. -/
def access (sha256 : String) : CacheProg Bool := do
  let normHash ← lift (validateHash sha256)
  if ← checkValid normHash then
    touch cfg normHash
    return true
  else return false

/-- Delete an object and its row. -/
def remove (sha256 : String) : CacheProg Bool := do
  let normHash ← lift (validateHash sha256)
  let diskDeleted ← deleteObject locked normHash
  let indexDeleted ← removeEntry normHash
  return diskDeleted || indexDeleted

/-- Verify an object against its row. -/
def verifyEntryLocked (sha256 : String) (deepCheck autoEvict : Bool) : CacheProg Bool := do
  let normHash := lowerText sha256
  match ← read (getEntry · normHash) with
  | none => return false
  | some entry =>
    let _ ← updateStatus normHash .verifying
    match ← read fun d => if objectExists d normHash then d.objects.get? normHash else none with
    | none =>
      if autoEvict then
        let _ ← removeEntry normHash
        return false
      else
        let _ ← updateStatus normHash .absent
        return false
    | some data =>
      if data.length ≠ entry.sizeBytes ∨ (deepCheck = true ∧ cfg.sha256 data ≠ normHash) then
        if autoEvict then
          let _ ← attempt (deleteObject locked normHash)
          let _ ← removeEntry normHash
          return false
        else
          let _ ← updateStatus normHash .corrupted
          return false
      else
        let _ ← updateStatus normHash .valid
        return true

/-- What a verification of all rows found. -/
structure VerificationReport where
  verifiedCount : ℕ := 0
  corruptedCount : ℕ := 0
  missingCount : ℕ := 0
  corruptedHashes : List String := []
  missingHashes : List String := []
  isHealthy : Bool := true
  deriving DecidableEq

/-- Verify a row in a pass over all. -/
def scrubEntry (deepCheck autoEvict : Bool) (report : VerificationReport)
    (row : String × CacheEntry) : CacheProg VerificationReport := do
  match ← read fun d => if objectExists d row.1 then d.objects.get? row.1 else none with
  | none =>
    if autoEvict then
      let _ ← removeEntry row.1
    else
      let _ ← updateStatus row.1 .absent
    return { report with
      missingCount := report.missingCount + 1, missingHashes := report.missingHashes ++ [row.1] }
  | some data =>
    if data.length ≠ row.2.sizeBytes ∨ (deepCheck = true ∧ cfg.sha256 data ≠ row.1) then
      if autoEvict then
        let _ ← attempt (deleteObject locked row.1)
        let _ ← removeEntry row.1
      else
        let _ ← updateStatus row.1 .corrupted
      return { report with
        corruptedCount := report.corruptedCount + 1
        corruptedHashes := report.corruptedHashes ++ [row.1] }
    else
      let _ ← updateStatus row.1 .valid
      return { report with verifiedCount := report.verifiedCount + 1 }

/-- Verify all rows. -/
def verifyAll (autoEvict : Bool) : CacheProg VerificationReport := do
  let entries ← read getAllEntries
  let report ← entries.foldlM (scrubEntry cfg locked true autoEvict) {}
  return { report with isHealthy := report.corruptedCount = 0 && report.missingCount = 0 }

/-- Verify one object. -/
def verify (sha256 : String) (deepCheck : Bool) : CacheProg Bool :=
  verifyEntryLocked cfg locked sha256 deepCheck false

/-- Evict rows that were used least recently. -/
def evictLru (targetBytesToFree : ℤ) : CacheProg ℕ :=
  evictToFree cfg locked targetBytesToFree

/-! ## Reconciliation -/

/-- What a reconciliation did. -/
structure ReconcileReport where
  danglingRemoved : ℕ := 0
  orphansRemoved : ℕ := 0
  corruptedRemoved : ℕ := 0
  verified : ℕ := 0
  deriving DecidableEq

/-- Remove a row and its file. -/
def dropCorrupted (report : ReconcileReport) (sha256 : String) : CacheProg ReconcileReport := do
  let _ ← removeEntry sha256
  let _ ← deleteObject locked sha256
  return { report with corruptedRemoved := report.corruptedRemoved + 1 }

/-- Verify a row, and drop it if its file is not what it says. -/
def reconcileEntry (dangling : List String) (report : ReconcileReport)
    (row : String × CacheEntry) : CacheProg ReconcileReport := do
  if row.1 ∈ dangling then return report
  let size ← read (getSize · row.1)
  let actualSize ← lift size
  if actualSize ≠ row.2.sizeBytes then dropCorrupted locked report row.1
  else
    match ← attempt (do
      let isValid ← verifyEntryLocked cfg locked row.1 true false
      if !isValid then dropCorrupted locked report row.1
      else return { report with verified := report.verified + 1 }) with
    | .ok report => return report
    | .error _ => dropCorrupted locked report row.1

/-- Make the rows and the files agree. -/
def reconcile (verifyHashes : Bool) : CacheProg ReconcileReport := do
  let indexedEntries ← read getAllEntries
  let indexedHashes := indexedEntries.map (·.1)
  let physicalHashes ← read (·.objects.keys)
  let dangling := indexedHashes.filter (· ∉ physicalHashes)
  let report ← (cfg.setOrder dangling).foldlM (fun (report : ReconcileReport) h => do
    let _ ← removeEntry h
    return { report with danglingRemoved := report.danglingRemoved + 1 }) {}
  let orphans := physicalHashes.filter (· ∉ indexedHashes)
  let report ← (cfg.setOrder orphans).foldlM (fun (report : ReconcileReport) h => do
    let _ ← deleteObject locked h
    return { report with orphansRemoved := report.orphansRemoved + 1 }) report
  if verifyHashes then indexedEntries.foldlM (reconcileEntry cfg locked dangling) report
  else return report

end Aidars.Cache
