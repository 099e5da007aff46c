import Aidars.Transfer.Range

/-!
# Downloads

`downloadStreamToStaging` streams an asset of a peer into a staging file and hashes it on the way. A
resumed download copies the bytes it has into the staging file first and asks the peer for the
others; if the peer sends the whole asset all the same, file and hash start again.

The file and the running hash are the same bytes at each point (`Staged.Agrees`), so a download that
returns has verified its file (`downloadStreamToStaging_spec`). A transfer commits the file to the
store, and goes through the candidates until one succeeds (`verified_download`). A resumed download
completes unless nothing is left to ask for (`resume_iff`).
-/

namespace Aidars

/-! ## Incremental hashes -/

/-- A hash that is computed from the bytes as they arrive; its digests are in lower case. -/
structure IncrementalHash where
  State : Type
  init : State
  update : State → Bytes → State
  digest : State → String
  hash : Bytes → String
  digest_foldl : ∀ chunks : List Bytes, digest (chunks.foldl update init) = hash chunks.flatten

namespace IncrementalHash

variable (H : IncrementalHash)

/-- The bytes were fed to the hasher. -/
def Fed (s : H.State) (bytes : Bytes) : Prop :=
  ∃ chunks : List Bytes, s = chunks.foldl H.update H.init ∧ chunks.flatten = bytes

variable {H} {s : H.State} {bytes chunk : Bytes}

theorem fed_init : H.Fed H.init [] := ⟨[], rfl, rfl⟩

theorem Fed.update (h : H.Fed s bytes) : H.Fed (H.update s chunk) (bytes ++ chunk) := by
  obtain ⟨chunks, rfl, rfl⟩ := h
  exact ⟨chunks ++ [chunk], by simp, by simp⟩

theorem Fed.digest (h : H.Fed s bytes) : H.digest s = H.hash bytes := by
  obtain ⟨chunks, rfl, rfl⟩ := h
  exact H.digest_foldl chunks

end IncrementalHash

/-! ## The download -/

/-- What ends a connection: a network error or another exception, with its text. -/
inductive StreamFault
  | network (text : String)
  | unexpected (text : String)
  deriving DecidableEq

/-- What a peer answers: the number in its `Content-Length`, if there is one that can be read, the
chunks that arrive, and what breaks the stream after them. -/
structure PeerResponse where
  statusCode : ℕ
  contentLength : Option ℤ := none
  chunks : List Bytes := []
  broken : Option StreamFault := none

/-- A connection to a peer: it fails, or the peer answers. -/
inductive Connection
  | failed (fault : StreamFault)
  | response (r : PeerResponse)

/-- The errors of a transfer. -/
inductive TransferError
  | valueError (error : ValueError)
  | offsetTooLong
  | workerHttpError (message : String) (statusCode : ℕ)
  | streamAbortError (message : String)
  | integrityError (expectedSha256 actualSha256 : String)
  | casCommitError (message : String)
  | osError
  | candidateExhaustedError (message : String) (candidateCount : ℕ)
  deriving DecidableEq

/-- The text of an error. The two value errors and errors of the file system carry their own. -/
def TransferError.message : TransferError → String
  | .workerHttpError message _ | .streamAbortError message | .casCommitError message
  | .candidateExhaustedError message _ => message
  | .integrityError expected actual =>
    "SHA-256 checksum mismatch: expected " ++ expected ++ ", got " ++ actual
  | .valueError _ => "Invalid SHA-256 hash format"
  | .offsetTooLong => "Exceeds the limit for integer string conversion"
  | .osError => "OSError"

/-- The error of a broken connection. -/
def StreamFault.toError (endpointUrl : String) : StreamFault → TransferError
  | .network text =>
    .streamAbortError ("Network error streaming from " ++ endpointUrl ++ ": " ++ text)
  | .unexpected text =>
    .streamAbortError ("Unexpected error streaming from " ++ endpointUrl ++ ": " ++ text)

/-- The state of a download: the staging files and the running hash. -/
structure Staged (H : IncrementalHash) where
  staging : Dict String Bytes
  hasher : H.State

namespace Staged

variable {H : IncrementalHash}

/-- Open the staging file for writing: it is empty. -/
def truncate (s : Staged H) (path : String) : Staged H :=
  { s with staging := s.staging.set path [] }

/-- One chunk: it is hashed and written to the end of the file. -/
def write (path : String) (s : Staged H) (chunk : Bytes) : Staged H where
  staging := s.staging.set path ((s.staging.get? path).getD [] ++ chunk)
  hasher := H.update s.hasher chunk

end Staged

/-- The buffers that `read(chunk_size)` returns of a file: a size of `-1` reads all of it, smaller
ones are an error. -/
def readChunks (chunkSize : ℤ) (data : Bytes) : Option (List Bytes) :=
  if chunkSize < -1 then none
  else if chunkSize = -1 then some (if data = [] then [] else [data])
  else some (boundedChunks chunkSize.toNat data.length data.length data)

/-- The part of a download before the connection: the bytes of the resume file are copied if their
number is the offset. The answer says whether they were. -/
def copyPrefix {H : IncrementalHash} (s : Staged H) (path endpointUrl : String) (chunkSize : ℤ)
    (offset : ℤ) (resume : Option Bytes) : Staged H × Except TransferError Bool :=
  match resume with
  | none => (s, .ok false)
  | some prev =>
    if 0 < offset ∧ (prev.length : ℤ) = offset then
      match readChunks chunkSize prev with
      | none => (s.truncate path, .error ((StreamFault.unexpected
          "read length must be non-negative or -1").toError endpointUrl))
      | some bufs => (bufs.foldl (Staged.write path) (s.truncate path), .ok true)
    else (s, .ok false)

/-- One chunk of the answer, with the number of bytes received. -/
def receiveChunk {H : IncrementalHash} (path : String) (acc : Staged H × ℕ) (chunk : Bytes) :
    Staged H × ℕ :=
  if chunk = [] then acc else (acc.1.write path chunk, acc.2 + chunk.length)

/-- Open the staging file for an answer: the prefix is kept if the peer sends the other bytes, and
dropped, from the file and from the hash, if it sends the whole asset. -/
def openStaging {H : IncrementalHash} (s : Staged H) (path : String) (statusCode : ℕ)
    (hasPrefix : Bool) : Staged H × Bool :=
  let reset := statusCode = 200 && hasPrefix
  let s := if reset then { s with hasher := H.init } else s
  let hasPrefix := hasPrefix && !reset
  (if statusCode = 206 && hasPrefix then s else s.truncate path, hasPrefix)

/-- The answer of the peer, with whether the file starts with a prefix. -/
def receive {H : IncrementalHash} (s : Staged H) (path norm endpointUrl : String) (offset : ℤ)
    (hasPrefix : Bool) (r : PeerResponse) : Staged H × Except TransferError (String × ℕ) :=
  if r.statusCode = 404 then
    (s, .error (.workerHttpError ("Asset " ++ norm ++ " not found on peer " ++ endpointUrl) 404))
  else if r.statusCode ≠ 200 ∧ r.statusCode ≠ 206 then
    (s, .error (.workerHttpError
      ("Peer " ++ endpointUrl ++ " returned HTTP " ++ toString r.statusCode) r.statusCode))
  else
    let (s, hasPrefix) := openStaging s path r.statusCode hasPrefix
    let (s, bytesReceived) := r.chunks.foldl (receiveChunk path) (s, 0)
    match r.broken with
    | some fault => (s, .error (fault.toError endpointUrl))
    | none =>
      if r.contentLength.any fun expected => (bytesReceived : ℤ) ≠ expected then
        (s, .error (.streamAbortError ("Stream truncated: received " ++ toString bytesReceived ++
          " bytes, expected " ++ toString (r.contentLength.getD 0) ++ " bytes")))
      else
        let actualHash := H.digest s.hasher
        if (offset = 0 ∨ hasPrefix ∨ r.statusCode = 200) ∧ actualHash ≠ norm then
          (s, .error (.integrityError norm actualHash))
        else (s, .ok (actualHash, bytesReceived))

/-- The download inside of the staging context. -/
def downloadBody {H : IncrementalHash} (s : Staged H) (path norm endpointUrl : String)
    (chunkSize offset : ℤ) (resume : Option Bytes) (c : Connection) :
    Staged H × Except TransferError (String × ℕ) :=
  match copyPrefix s path endpointUrl chunkSize offset resume with
  | (s, .error e) => (s, .error e)
  | (s, .ok hasPrefix) =>
    match c with
    | .failed fault => (s, .error (fault.toError endpointUrl))
    | .response r => receive s path norm endpointUrl offset hasPrefix r

/-- The `Range` header of the request; the text of an offset is limited like every number. -/
def requestRange (maxStrDigits : ℕ) (offset : ℤ) : Except TransferError (Option String) :=
  if 0 < offset then
    if Converts maxStrDigits (Nat.toDigits 10 offset.toNat) then
      .ok (some ("bytes=" ++ toString offset.toNat ++ "-"))
    else .error .offsetTooLong
  else .ok none

/-- Download an asset of a peer into the staging file `path`, which is removed if that fails. `peer`
says how the connection goes, by the `Range` header. -/
def downloadStreamToStaging (H : IncrementalHash) (maxStrDigits : ℕ) (staging : Dict String Bytes)
    (path sha256 endpointUrl : String) (chunkSize offset : ℤ) (resume : Option Bytes)
    (peer : Option String → Connection) :
    Staged H × Except TransferError (String × String × ℕ) :=
  let start : Staged H := { staging, hasher := H.init }
  match validateSha256Hex sha256 with
  | .error e => (start, .error (.valueError e))
  | .ok norm =>
    match requestRange maxStrDigits offset with
    | .error e => (start, .error e)
    | .ok range =>
      match downloadBody start path norm endpointUrl chunkSize offset resume (peer range) with
      | (s, .ok (actualHash, bytesReceived)) => (s, .ok (path, actualHash, bytesReceived))
      | (s, .error e) => ({ s with staging := s.staging.erase path }, .error e)

/-! ## Transfers -/

/-- A source that an asset can be streamed from. -/
structure CandidateSource where
  workerId : String
  endpointUrl : String
  deriving DecidableEq

/-- The outcome of a transfer. -/
structure TransferResult where
  sha256 : String
  success : Bool
  bytesTransferred : ℕ := 0
  totalBytes : ℕ := 0
  verifiedSha256 : Option String := none
  committedPath : Option String := none
  sourceWorkerId : String
  sourceEndpointUrl : String
  errorMessage : Option String := none
  deriving DecidableEq

/-- How the attempt at a candidate goes: the name of its staging file, how the connection goes, and
what fails in the commit. The removal of a staging file does not fail. -/
structure Attempted where
  path : String
  peer : Connection
  read : Bool := false
  mkdir : Bool := false
  replace : Bool := false

/-- What fails in the commit of an attempt. -/
def Attempted.faults (t : Attempted) : LocalCASAdapter.Faults :=
  { read := t.read, mkdir := t.mkdir, replace := t.replace }

namespace LocalCASAdapter

/-- The path of an asset, if it is in the store. -/
def getAssetPath (cas : LocalCASAdapter) (norm : String) : Option String :=
  if (cas.objects.get? norm).isSome then
    some ("objects/" ++ (norm.take 2).toString ++ "/" ++ norm)
  else none

/-- The result of a transfer of an asset that is in the store. -/
def localResult (cas : LocalCASAdapter) (norm : String) : TransferResult where
  sha256 := norm
  success := true
  totalBytes := ((cas.objects.get? norm).map List.length).getD 0
  verifiedSha256 := some norm
  committedPath := cas.getAssetPath norm
  sourceWorkerId := "local_cas"
  sourceEndpointUrl := "local://cas"

/-- The result of a transfer that failed. -/
def failedResult (norm : String) (candidate : CandidateSource) (e : TransferError) :
    TransferResult where
  sha256 := norm
  success := false
  sourceWorkerId := candidate.workerId
  sourceEndpointUrl := candidate.endpointUrl
  errorMessage := some e.message

/-- Download an asset of a candidate and commit it to the store. -/
def transferAssetFromCandidate (H : IncrementalHash) (maxStrDigits : ℕ) (cas : LocalCASAdapter)
    (candidate : CandidateSource) (sha256 : String) (chunkSize : ℤ) (t : Attempted) :
    LocalCASAdapter × Except TransferError TransferResult :=
  match validateSha256Hex sha256 with
  | .error e => (cas, .error (.valueError e))
  | .ok norm =>
    if cas.hasAsset norm then (cas, .ok (cas.localResult norm))
    else
      match downloadStreamToStaging H maxStrDigits cas.staging t.path norm candidate.endpointUrl
        chunkSize 0 none fun _ => t.peer with
      | (s, .error e) => ({ cas with staging := s.staging }, .ok (failedResult norm candidate e))
      | (s, .ok (stgPath, verifiedHash, bytesTransferred)) =>
        match commitStagedFile H.hash { cas with staging := s.staging } stgPath norm t.faults with
        | (cas, .ok true) =>
          (cas, .ok {
            sha256 := norm
            success := true
            bytesTransferred
            totalBytes := bytesTransferred
            verifiedSha256 := some verifiedHash
            committedPath := cas.getAssetPath norm
            sourceWorkerId := candidate.workerId
            sourceEndpointUrl := candidate.endpointUrl })
        | (cas, .ok false) =>
          ({ cas with staging := cas.staging.erase stgPath },
            .ok (failedResult norm candidate (.casCommitError
              ("CASAdapter failed to commit staged file for " ++ norm))))
        | (cas, .error _) =>
          ({ cas with staging := cas.staging.erase stgPath },
            .ok (failedResult norm candidate .osError))

/-- The loop over the candidates, with the results of the attempts and the last error. -/
def failoverLoop (H : IncrementalHash) (maxStrDigits : ℕ) (norm : String) (chunkSize : ℤ)
    (candidateCount : ℕ) : LocalCASAdapter → List TransferResult → Option String →
    List (CandidateSource × Attempted) →
    LocalCASAdapter × List TransferResult × Except TransferError TransferResult
  | cas, tried, lastError, [] =>
    (cas, tried, .error (.candidateExhaustedError
      ("All " ++ toString candidateCount ++ " candidates failed for asset " ++ norm ++
        ". Last error: " ++ lastError.getD "None") candidateCount))
  | cas, tried, _, (candidate, t) :: rest =>
    match transferAssetFromCandidate H maxStrDigits cas candidate norm chunkSize t with
    | (cas, .error e) => (cas, tried, .error e)
    | (cas, .ok result) =>
      if result.success then (cas, tried ++ [result], .ok result)
      else
        failoverLoop H maxStrDigits norm chunkSize candidateCount cas (tried ++ [result])
          result.errorMessage rest

/-- Transfer an asset from the first candidate that succeeds, with the results of the attempts. -/
def transferAssetWithFailover (H : IncrementalHash) (maxStrDigits : ℕ) (cas : LocalCASAdapter)
    (candidates : List (CandidateSource × Attempted)) (sha256 : String) (chunkSize : ℤ) :
    LocalCASAdapter × List TransferResult × Except TransferError TransferResult :=
  match validateSha256Hex sha256 with
  | .error e => (cas, [], .error (.valueError e))
  | .ok norm =>
    if cas.hasAsset norm then (cas, [], .ok (cas.localResult norm))
    else if candidates = [] then
      (cas, [], .error (.candidateExhaustedError
        ("No candidate sources provided for asset " ++ norm) 0))
    else failoverLoop H maxStrDigits norm chunkSize candidates.length cas [] none candidates

end LocalCASAdapter

/-! ## The file and the hash -/

namespace Staged

variable {H : IncrementalHash} {s s' s'' : Staged H} {path : String} {file : Bytes}

/-- The staging file has these bytes, and they were fed to the hasher. -/
def Holds (s : Staged H) (path : String) (file : Bytes) : Prop :=
  s.staging.get? path = some file ∧ H.Fed s.hasher file

/-- No other staging file was touched. -/
def Only (path : String) (s s' : Staged H) : Prop :=
  ∀ name, name ≠ path → s'.staging.get? name = s.staging.get? name

theorem Only.refl : Only path s s := fun _ _ => rfl

theorem Only.trans (h : Only path s s') (h' : Only path s' s'') : Only path s s'' :=
  fun name hname => (h' name hname).trans (h name hname)

theorem only_truncate : Only path s (s.truncate path) := by
  intro name hname
  simp [truncate, hname]

theorem only_write (chunk : Bytes) : Only path s (s.write path chunk) := by
  intro name hname
  simp [write, hname]

/-- A file that has just been opened is empty, like a new hasher. -/
theorem holds_truncate (path : String) (hinit : s.hasher = H.init) :
    (s.truncate path).Holds path [] := by
  refine ⟨by simp [truncate], ?_⟩
  change H.Fed s.hasher []
  rw [hinit]
  exact IncrementalHash.fed_init

/-- A chunk is written as it is hashed. -/
theorem Holds.write (h : s.Holds path file) (chunk : Bytes) :
    (s.write path chunk).Holds path (file ++ chunk) := by
  obtain ⟨hfile, hfed⟩ := h
  exact ⟨by simp [Staged.write, hfile], hfed.update⟩

theorem Holds.foldl_write (bufs : List Bytes) (h : s.Holds path file) :
    (bufs.foldl (Staged.write path) s).Holds path (file ++ bufs.flatten) ∧
      Only path s (bufs.foldl (Staged.write path) s) := by
  induction bufs generalizing s file with
  | nil => simpa using And.intro h Only.refl
  | cons buf bufs ih =>
    obtain ⟨hholds, honly⟩ := ih (h.write buf)
    rw [List.append_assoc] at hholds
    exact ⟨hholds, (only_write buf).trans honly⟩

theorem Holds.foldl_receiveChunk (chunks : List Bytes) (n : ℕ) (h : s.Holds path file) :
    (chunks.foldl (receiveChunk path) (s, n)).1.Holds path (file ++ chunks.flatten) ∧
      (chunks.foldl (receiveChunk path) (s, n)).2 = n + chunks.flatten.length ∧
      Only path s (chunks.foldl (receiveChunk path) (s, n)).1 := by
  induction chunks generalizing s file n with
  | nil => simpa using And.intro h Only.refl
  | cons chunk chunks ih =>
    rw [List.foldl_cons, receiveChunk, List.flatten_cons]
    split_ifs with hempty
    · rw [hempty, List.nil_append]
      exact ih n h
    · obtain ⟨hholds, hcount, honly⟩ := ih (n + chunk.length) (h.write chunk)
      rw [List.append_assoc] at hholds
      refine ⟨hholds, ?_, (only_write chunk).trans honly⟩
      rw [hcount, List.length_append]
      omega

end Staged

section Body

open Staged

variable {H : IncrementalHash} {s : Staged H} {path norm url : String} {chunkSize offset : ℤ}
  {resume : Option Bytes} {hasPrefix : Bool} {pre : Bytes}

/-- The resume file is used: it has as many bytes as the offset says. -/
def UsesPrefix (offset : ℤ) (resume : Option Bytes) : Prop :=
  0 < offset ∧ ∃ prev, resume = some prev ∧ (prev.length : ℤ) = offset

/-- What is staged before the connection: the prefix, or nothing. -/
def Starts (s : Staged H) (path : String) (hasPrefix : Bool) (pre : Bytes) : Prop :=
  if hasPrefix then s.Holds path pre else s.hasher = H.init

/-- After the prefix was copied the file agrees with the hasher; without one both are untouched. -/
theorem copyPrefix_spec (hinit : s.hasher = H.init) :
    Only path s (copyPrefix s path url chunkSize offset resume).1 ∧
    ∀ hasPrefix, (copyPrefix s path url chunkSize offset resume).2 = .ok hasPrefix →
      (hasPrefix = true ↔ UsesPrefix offset resume) ∧
      ∃ pre, Starts (copyPrefix s path url chunkSize offset resume).1 path hasPrefix pre := by
  unfold copyPrefix UsesPrefix Starts
  cases resume with
  | none => exact ⟨.refl, fun hasPrefix h => by obtain rfl := Except.ok.inj h; simp [hinit]⟩
  | some prev =>
    dsimp only
    split_ifs with hused
    · cases hbufs : readChunks chunkSize prev with
      | none => exact ⟨only_truncate, fun hasPrefix h => by cases h⟩
      | some bufs =>
        obtain ⟨hholds, honly⟩ := (holds_truncate path hinit).foldl_write bufs
        refine ⟨only_truncate.trans honly, fun hasPrefix h => ?_⟩
        obtain rfl := Except.ok.inj h
        exact ⟨by simp [hused], _, hholds⟩
    · refine ⟨.refl, fun hasPrefix h => ?_⟩
      obtain rfl := Except.ok.inj h
      simp [hused, hinit]

/-- The bytes that a file keeps when an answer arrives. -/
def keptPrefix (statusCode : ℕ) (hasPrefix : Bool) (pre : Bytes) : Bytes :=
  if statusCode = 206 ∧ hasPrefix = true then pre else []

/-- The file that is opened for an answer agrees with the hasher. -/
theorem openStaging_spec {statusCode : ℕ} (hstatus : statusCode = 200 ∨ statusCode = 206)
    (hstart : Starts s path hasPrefix pre) :
    (openStaging s path statusCode hasPrefix).1.Holds path (keptPrefix statusCode hasPrefix pre) ∧
      Only path s (openStaging s path statusCode hasPrefix).1 ∧
      (hasPrefix = true → statusCode ≠ 200 →
        (openStaging s path statusCode hasPrefix).2 = true) := by
  unfold openStaging keptPrefix
  unfold Starts at hstart
  cases hasPrefix with
  | false =>
    simp only [Bool.and_false, Bool.false_eq_true, if_false, Bool.false_and, and_false]
      at hstart ⊢
    exact ⟨holds_truncate path hstart, only_truncate, nofun⟩
  | true =>
    obtain rfl | rfl := hstatus
    · exact ⟨holds_truncate path rfl, fun name hname => by simp [truncate, hname],
        fun _ h => absurd rfl h⟩
    · exact ⟨hstart, .refl, fun _ _ => rfl⟩

/-- The bytes that are received are hashed and written; they are verified if the file is known to
start at the first byte of the asset. -/
theorem receive_spec (r : PeerResponse) (hstart : Starts s path hasPrefix pre) :
    Only path s (receive s path norm url offset hasPrefix r).1 ∧
    ∀ actual n, (receive s path norm url offset hasPrefix r).2 = .ok (actual, n) →
      ∃ file, (receive s path norm url offset hasPrefix r).1.Holds path file ∧
        actual = H.hash file ∧
        (offset = 0 ∨ hasPrefix = true ∨ r.statusCode = 200 → actual = norm) := by
  unfold receive
  split_ifs with h404 hstatus
  · exact ⟨.refl, nofun⟩
  · exact ⟨.refl, nofun⟩
  · have hcode : r.statusCode = 200 ∨ r.statusCode = 206 := by omega
    obtain ⟨hopened, honly, hkept⟩ := openStaging_spec hcode hstart
    obtain ⟨hholds, -, hreceived⟩ := hopened.foldl_receiveChunk r.chunks 0
    have htouched := honly.trans hreceived
    generalize openStaging s path r.statusCode hasPrefix = opened at *
    dsimp only
    cases r.broken with
    | some fault => exact ⟨htouched, nofun⟩
    | none =>
      dsimp only
      split_ifs with hlength hhash
      · exact ⟨htouched, nofun⟩
      · exact ⟨htouched, nofun⟩
      · refine ⟨htouched, fun actual n hok => ?_⟩
        obtain ⟨rfl, rfl⟩ := Prod.mk.inj (Except.ok.inj hok)
        refine ⟨_, hholds, hholds.2.digest, fun hverified => ?_⟩
        by_contra hne
        refine hhash ⟨?_, hne⟩
        obtain hzero | hcopied | h200 := hverified
        · exact .inl hzero
        · by_cases h200 : r.statusCode = 200
          · exact .inr (.inr h200)
          · exact .inr (.inl (hkept hcopied h200))
        · exact .inr (.inr h200)

/-- The file of a download is verified: it starts at the first byte of the asset, by its offset, by
the prefix, or by the answer of the peer. -/
def Verified (offset : ℤ) (resume : Option Bytes) (c : Connection) : Prop :=
  offset = 0 ∨ UsesPrefix offset resume ∨ ∃ r, c = .response r ∧ r.statusCode = 200

theorem downloadBody_spec (c : Connection) (hinit : s.hasher = H.init) :
    Only path s (downloadBody s path norm url chunkSize offset resume c).1 ∧
    ∀ actual n, (downloadBody s path norm url chunkSize offset resume c).2 = .ok (actual, n) →
      ∃ file, (downloadBody s path norm url chunkSize offset resume c).1.Holds path file ∧
        actual = H.hash file ∧ (Verified offset resume c → actual = norm) := by
  unfold downloadBody
  obtain ⟨honly, hcopied⟩ :=
    @copyPrefix_spec H s path url chunkSize offset resume hinit
  generalize copyPrefix s path url chunkSize offset resume = copied at *
  obtain ⟨s', e | hasPrefix⟩ := copied
  · exact ⟨honly, nofun⟩
  · obtain ⟨hused, pre, hstart⟩ := hcopied hasPrefix rfl
    cases c with
    | failed fault => exact ⟨honly, nofun⟩
    | response r =>
      obtain ⟨hreceived, hok⟩ := @receive_spec H s' path norm url offset hasPrefix pre r hstart
      refine ⟨honly.trans hreceived, fun actual n h => ?_⟩
      obtain ⟨file, hholds, hhash, hverified⟩ := hok actual n h
      refine ⟨file, hholds, hhash, fun h => hverified ?_⟩
      obtain hzero | huses | ⟨r', hr, h200⟩ := h
      · exact .inl hzero
      · exact .inr (.inl (hused.2 huses))
      · obtain rfl := Connection.response.inj hr
        exact .inr (.inr h200)

/-- No staging file is there that was not there before. -/
def LeavesNothing (staging staging' : Dict String Bytes) : Prop :=
  ∀ name file, staging'.get? name = some file → staging.get? name = some file

theorem LeavesNothing.refl {staging : Dict String Bytes} : LeavesNothing staging staging :=
  fun _ _ => id

theorem LeavesNothing.trans {staging staging' staging'' : Dict String Bytes}
    (h : LeavesNothing staging staging') (h' : LeavesNothing staging' staging'') :
    LeavesNothing staging staging'' :=
  fun name file hfile => h name file (h' name file hfile)

theorem leavesNothing_erase {staging staging' : Dict String Bytes} {path : String}
    (h : ∀ name, name ≠ path → staging'.get? name = staging.get? name) :
    LeavesNothing staging (staging'.erase path) := by
  intro name file hfile
  rw [Dict.get?_erase] at hfile
  split_ifs at hfile with hname
  exact (h name hname).symm.trans hfile

theorem LeavesNothing.gone {staging staging' : Dict String Bytes} {path : String}
    (h : LeavesNothing staging staging') (hnew : staging.get? path = none) :
    staging'.get? path = none := by
  by_contra hleft
  obtain ⟨file, hfile⟩ := Option.ne_none_iff_exists'.1 hleft
  rw [h path file hfile] at hnew
  cases hnew

/-- A download that raises an error leaves nothing, and one that returns has the bytes it hashed in
its staging file, which is the requested asset if it is verified. -/
structure Downloads (H : IncrementalHash) (staging : Dict String Bytes) (path sha256 : String)
    (verified : Prop) (out : Staged H × Except TransferError (String × String × ℕ)) : Prop where
  others : Only path { staging, hasher := H.init } out.1
  error : ∀ e, out.2 = .error e → LeavesNothing staging out.1.staging ∧
    (staging.get? path = none → out.1.staging.get? path = none)
  ok : ∀ p actual n, out.2 = .ok (p, actual, n) → p = path ∧
    ∃ file, out.1.Holds path file ∧ actual = H.hash file ∧
      (verified → validateSha256Hex sha256 = .ok (H.hash file))

/-- **A download verifies what it returns.** -/
theorem downloadStreamToStaging_spec (H : IncrementalHash) (maxStrDigits : ℕ)
    (staging : Dict String Bytes) (path sha256 url : String) (chunkSize offset : ℤ)
    (resume : Option Bytes) (peer : Option String → Connection) :
    Downloads H staging path sha256
      (∃ range, requestRange maxStrDigits offset = .ok range ∧
        Verified offset resume (peer range))
      (downloadStreamToStaging H maxStrDigits staging path sha256 url chunkSize offset resume
        peer) := by
  unfold downloadStreamToStaging
  dsimp only
  cases hval : validateSha256Hex sha256 with
  | error e => exact ⟨.refl, fun _ _ => ⟨.refl, id⟩, nofun⟩
  | ok norm =>
    cases hrange : requestRange maxStrDigits offset with
    | error e => exact ⟨.refl, fun _ _ => ⟨.refl, id⟩, nofun⟩
    | ok range =>
      dsimp only
      obtain ⟨honly, hok⟩ := @downloadBody_spec H { staging, hasher := H.init } path norm url
        chunkSize offset resume (peer range) rfl
      generalize downloadBody _ path norm url chunkSize offset resume (peer range) = body at *
      obtain ⟨s, e | ⟨actual, n⟩⟩ := body
      · have hleft : LeavesNothing staging (s.staging.erase path) := leavesNothing_erase honly
        refine ⟨fun name hname => ?_, fun _ _ => ⟨hleft, hleft.gone⟩, nofun⟩
        exact (by simp [hname] : _ = s.staging.get? name).trans (honly name hname)
      · refine ⟨honly, nofun, fun p actual' n' h => ?_⟩
        obtain ⟨rfl, hrest⟩ := Prod.mk.inj (Except.ok.inj h)
        obtain ⟨rfl, rfl⟩ := Prod.mk.inj hrest
        obtain ⟨file, hholds, hhash, hverified⟩ := hok actual n rfl
        refine ⟨rfl, file, hholds, hhash, ?_⟩
        rintro ⟨range', hrange', hv⟩
        obtain rfl := Except.ok.inj hrange'
        rw [hval, ← hverified hv, hhash]

end Body

/-! ## Transfers from candidates -/

namespace LocalCASAdapter

variable {H : IncrementalHash} {maxStrDigits : ℕ} {cas : LocalCASAdapter} {sha256 norm : String}
  {chunkSize : ℤ} {candidate : CandidateSource} {t : Attempted}

/-- What the attempt at a candidate does: a success has the asset in the store, a failure changes no
object. -/
structure Attempts (cas : LocalCASAdapter) (candidate : CandidateSource) (norm : String)
    (cas' : LocalCASAdapter) (r : TransferResult) : Prop where
  workerId : r.sourceWorkerId = candidate.workerId
  endpointUrl : r.sourceEndpointUrl = candidate.endpointUrl
  staging : LeavesNothing cas.staging cas'.staging
  success : r.success = true → cas'.hasAsset norm = true
  failure : r.success = false → cas'.objects = cas.objects

/-- The commit of a verified file. -/
theorem commit_verified {staging : Dict String Bytes} {path : String} {file : Bytes}
    (hfile : staging.get? path = some file) (hval : validateSha256Hex norm = .ok (H.hash file)) :
    ∃ ok, (commitStagedFile H.hash { cas with staging } path norm t.faults).2 = .ok ok ∧
      (commitStagedFile H.hash { cas with staging } path norm t.faults).1.staging =
        staging.erase path ∧
      (ok = true → (commitStagedFile H.hash { cas with staging } path norm t.faults).1.hasAsset
        norm = true) ∧
      (ok = false → (commitStagedFile H.hash { cas with staging } path norm t.faults).1.objects =
        cas.objects) := by
  obtain ⟨-, hcommitted⟩ | ⟨hclean, -⟩ := @commitStagedFile_spec H.hash { cas with staging } path
    file hfile norm t.faults
  · generalize commitStagedFile H.hash { cas with staging } path norm t.faults = r at *
    cases hcommitted with
    | stored h =>
      refine ⟨true, rfl, rfl, fun _ => ?_, fun h => by cases h⟩
      rw [hasAsset, hval]
      simp
    | present h hobject =>
      refine ⟨true, rfl, rfl, fun _ => ?_, fun h => by cases h⟩
      rw [hasAsset, hval]
      exact hobject
    | refused => exact ⟨false, rfl, rfl, (fun h => by cases h), fun _ => rfl⟩
  · exact absurd (.inl rfl) hclean

/-- **The attempt at a candidate** for an asset that is not in the store. -/
theorem transferAssetFromCandidate_spec (hval : validateSha256Hex norm = .ok norm)
    (habsent : cas.hasAsset norm = false) :
    ∃ cas' r, transferAssetFromCandidate H maxStrDigits cas candidate norm chunkSize t =
      (cas', .ok r) ∧ Attempts cas candidate norm cas' r := by
  obtain ⟨honly, herror, hok⟩ := downloadStreamToStaging_spec H maxStrDigits cas.staging t.path norm
    candidate.endpointUrl chunkSize 0 none fun _ => t.peer
  unfold transferAssetFromCandidate
  rw [hval]
  dsimp only
  rw [if_neg (by simp [habsent])]
  generalize downloadStreamToStaging H maxStrDigits cas.staging t.path norm candidate.endpointUrl
    chunkSize 0 none (fun _ => t.peer) = out at *
  obtain ⟨s, e | ⟨p, actual, n⟩⟩ := out
  · exact ⟨_, _, rfl, rfl, rfl, (herror e rfl).1, nofun, fun _ => rfl⟩
  · obtain ⟨rfl, file, ⟨hfile, -⟩, -, hverified⟩ := hok p actual n rfl
    have hhash : validateSha256Hex norm = .ok (H.hash file) := hverified ⟨none, rfl, .inl rfl⟩
    obtain ⟨ok, hcommit, hstaging, hstored, hrefused⟩ := @commit_verified H cas norm t _ _ _ hfile
      hhash
    dsimp only
    generalize commitStagedFile H.hash { cas with staging := s.staging } t.path norm t.faults =
      committed at *
    obtain ⟨cas', answer⟩ := committed
    obtain rfl : answer = .ok ok := hcommit
    have hleft : LeavesNothing cas.staging cas'.staging := by
      rw [show cas'.staging = s.staging.erase t.path from hstaging]
      exact leavesNothing_erase honly
    cases ok with
    | true => exact ⟨_, _, rfl, rfl, rfl, hleft, fun _ => hstored rfl, nofun⟩
    | false =>
      refine ⟨_, _, rfl, rfl, rfl, hleft.trans ?_, nofun, fun _ => hrefused rfl⟩
      exact leavesNothing_erase fun _ _ => rfl

/-- The results of candidates that were tried in order, all of them failures. -/
def Failed (candidates : List (CandidateSource × Attempted)) (results : List TransferResult) :
    Prop :=
  List.Forall₂ (fun c r => r.sourceWorkerId = c.1.workerId ∧
    r.sourceEndpointUrl = c.1.endpointUrl ∧ r.success = false) candidates results

/-- How a transfer ends: the first candidate that succeeds has brought the asset to the store, or
all of them have failed. -/
inductive Exhausts (candidates : List (CandidateSource × Attempted)) (norm : String) :
    LocalCASAdapter × List TransferResult × Except TransferError TransferResult → Prop
  | succeeded {cas : LocalCASAdapter} {before after : List (CandidateSource × Attempted)}
      {candidate : CandidateSource} {t : Attempted} {failed : List TransferResult}
      {r : TransferResult} (horder : candidates = before ++ (candidate, t) :: after)
      (hfailed : Failed before failed) (hworker : r.sourceWorkerId = candidate.workerId)
      (hurl : r.sourceEndpointUrl = candidate.endpointUrl) (hsuccess : r.success = true)
      (hasset : cas.hasAsset norm = true) :
      Exhausts candidates norm (cas, failed ++ [r], .ok r)
  | exhausted {cas : LocalCASAdapter} {failed : List TransferResult} {message : String} {n : ℕ}
      (hfailed : Failed candidates failed) :
      Exhausts candidates norm (cas, failed, .error (.candidateExhaustedError message n))

/-- The loop over the candidates that are left, after the others have failed. -/
theorem failoverLoop_spec (hval : validateSha256Hex norm = .ok norm)
    (habsent : cas.hasAsset norm = false) {done rest : List (CandidateSource × Attempted)}
    {tried : List TransferResult} (htried : Failed done tried) (n : ℕ) (lastError : Option String) :
    LeavesNothing cas.staging
      (failoverLoop H maxStrDigits norm chunkSize n cas tried lastError rest).1.staging ∧
    Exhausts (done ++ rest) norm
      (failoverLoop H maxStrDigits norm chunkSize n cas tried lastError rest) := by
  induction rest generalizing cas done tried lastError with
  | nil =>
    rw [List.append_nil]
    exact ⟨.refl, .exhausted htried⟩
  | cons c rest ih =>
    obtain ⟨candidate, t⟩ := c
    obtain ⟨cas', r, heq, hworker, hurl, hleft, hstored, hkept⟩ :=
      @transferAssetFromCandidate_spec H maxStrDigits cas norm chunkSize candidate t hval habsent
    rw [failoverLoop, heq]
    dsimp only
    cases hsuccess : r.success with
    | true =>
      rw [if_pos rfl]
      exact ⟨hleft, .succeeded rfl htried hworker hurl hsuccess (hstored hsuccess)⟩
    | false =>
      rw [if_neg (by simp)]
      have habsent' : cas'.hasAsset norm = false := by
        rw [hasAsset, hkept hsuccess]
        exact habsent
      have hfailed : Failed (done ++ [(candidate, t)]) (tried ++ [r]) :=
        List.rel_append htried (.cons ⟨hworker, hurl, hsuccess⟩ .nil)
      obtain ⟨hleft', hends⟩ := ih habsent' hfailed r.errorMessage
      rw [List.append_assoc, List.singleton_append] at hends
      exact ⟨hleft.trans hleft', hends⟩

/-- A transfer succeeds only with the asset in the store, leaves no staging file, and goes through
the candidates in order if the asset is not in the store. -/
structure FailsOver (cas : LocalCASAdapter) (candidates : List (CandidateSource × Attempted))
    (sha256 : String)
    (out : LocalCASAdapter × List TransferResult × Except TransferError TransferResult) :
    Prop where
  staging : LeavesNothing cas.staging out.1.staging
  success : ∀ r, out.2.2 = .ok r → r.success = true ∧ out.1.hasAsset sha256 = true
  invalid : ∀ e, validateSha256Hex sha256 = .error e → out = (cas, [], .error (.valueError e))
  present : ∀ norm, validateSha256Hex sha256 = .ok norm → cas.hasAsset norm = true →
    out = (cas, [], .ok (cas.localResult norm))
  order : ∀ norm, validateSha256Hex sha256 = .ok norm → cas.hasAsset norm = false →
    Exhausts candidates norm out

theorem hasAsset_congr (hval : validateSha256Hex sha256 = .ok norm) :
    cas.hasAsset sha256 = cas.hasAsset norm := by
  rw [hasAsset, hasAsset, hval, validateSha256Hex_idem hval]

/-- A success has the asset in the store. -/
theorem Exhausts.success {candidates : List (CandidateSource × Attempted)} {r : TransferResult}
    {out : LocalCASAdapter × List TransferResult × Except TransferError TransferResult}
    (h : Exhausts candidates norm out) (hok : out.2.2 = .ok r) :
    r.success = true ∧ out.1.hasAsset norm = true := by
  cases h with
  | succeeded _ _ _ _ hsuccess hasset => exact ⟨Except.ok.inj hok ▸ hsuccess, hasset⟩
  | exhausted => cases hok

theorem transferAssetWithFailover_spec (candidates : List (CandidateSource × Attempted))
    (sha256 : String) :
    FailsOver cas candidates sha256
      (transferAssetWithFailover H maxStrDigits cas candidates sha256 chunkSize) := by
  cases hval : validateSha256Hex sha256 with
  | error e =>
    have hout : transferAssetWithFailover H maxStrDigits cas candidates sha256 chunkSize =
        (cas, [], .error (.valueError e)) := by
      rw [transferAssetWithFailover, hval]
    rw [hout]
    refine ⟨.refl, nofun, fun e' he' => ?_, fun norm h => ?_, fun norm h => ?_⟩
    · rw [Except.error.inj (hval.symm.trans he')]
    · rw [hval] at h
      cases h
    · rw [hval] at h
      cases h
  | ok norm =>
    cases hasset : cas.hasAsset norm with
    | true =>
      have hout : transferAssetWithFailover H maxStrDigits cas candidates sha256 chunkSize =
          (cas, [], .ok (cas.localResult norm)) := by
        rw [transferAssetWithFailover, hval]
        exact if_pos hasset
      rw [hout]
      refine ⟨.refl, fun r hr => ?_, fun e he => ?_, fun norm' h _ => ?_, fun norm' h hno => ?_⟩
      · obtain rfl := Except.ok.inj hr
        exact ⟨rfl, (hasAsset_congr hval).trans hasset⟩
      · rw [hval] at he
        cases he
      · rw [Except.ok.inj (hval.symm.trans h)]
      · rw [← Except.ok.inj (hval.symm.trans h), hasset] at hno
        cases hno
    | false =>
      have hends : LeavesNothing cas.staging
          (transferAssetWithFailover H maxStrDigits cas candidates sha256 chunkSize).1.staging ∧
          Exhausts candidates norm
            (transferAssetWithFailover H maxStrDigits cas candidates sha256 chunkSize) := by
        rw [transferAssetWithFailover, hval]
        dsimp only
        rw [if_neg (by simp [hasset])]
        split_ifs with hempty
        · exact ⟨.refl, .exhausted (hempty ▸ .nil)⟩
        · exact @failoverLoop_spec H maxStrDigits cas norm chunkSize (validateSha256Hex_idem hval)
            hasset [] candidates [] .nil candidates.length none
      refine ⟨hends.1, fun r hr => ?_, fun e he => ?_, fun norm' h hyes => ?_, fun norm' h _ => ?_⟩
      · obtain ⟨hsuccess, hstored⟩ := hends.2.success hr
        exact ⟨hsuccess, (hasAsset_congr hval).trans hstored⟩
      · rw [hval] at he
        cases he
      · rw [← Except.ok.inj (hval.symm.trans h), hasset] at hyes
        cases hyes
      · rw [← Except.ok.inj (hval.symm.trans h)]
        exact hends.2

/-- **Verified downloads.** A download that returns has its file hashed and, if the file starts at
the first byte of the asset, verified; one that raises an error leaves no staging file. A transfer
succeeds with the first candidate that does, with the asset in the store, or all of them fail. -/
theorem verified_download (H : IncrementalHash) (maxStrDigits : ℕ) :
    (∀ staging path sha256 url chunkSize offset resume peer,
      Downloads H staging path sha256
        (∃ range, requestRange maxStrDigits offset = .ok range ∧
          Verified offset resume (peer range))
        (downloadStreamToStaging H maxStrDigits staging path sha256 url chunkSize offset resume
          peer)) ∧
    ∀ cas candidates sha256 chunkSize,
      FailsOver cas candidates sha256
        (transferAssetWithFailover H maxStrDigits cas candidates sha256 chunkSize) :=
  ⟨downloadStreamToStaging_spec H maxStrDigits,
    fun _ candidates sha256 _ => transferAssetWithFailover_spec candidates sha256⟩

/-! ## Resumed downloads -/

/-- How the connection to a worker goes that streams an asset of its store without faults; the
client reads the bytes in chunks of its own. -/
def servedBy (maxStrDigits : ℕ) (cas : LocalCASAdapter) (chunkSizeBytes : ℤ) (norm : String)
    (rechunk : List Bytes → List Bytes) (range : Option String) : Connection :=
  match streamAsset maxStrDigits cas chunkSizeBytes norm range with
  | .ok r => .response
    { statusCode := r.statusCode
      contentLength := r.contentLength.map Int.ofNat
      chunks := rechunk r.chunks }
  | .error e => .response { statusCode := e.statusCode }

/-- The download returns the asset. -/
def Completes (out : Staged H × Except TransferError (String × String × ℕ)) (path norm : String)
    (content : Bytes) : Prop :=
  ∃ received, out.2 = .ok (path, norm, received) ∧ out.1.staging.get? path = some content

variable {path url : String} {content : Bytes} {s : Staged H} {offset : ℤ}

/-- An answer whose bytes complete the file is received. -/
theorem receive_complete {hasPrefix : Bool} {pre : Bytes} {r : PeerResponse}
    (hstart : Starts s path hasPrefix pre) (hcode : r.statusCode = 200 ∨ r.statusCode = 206)
    (hbroken : r.broken = none) (hlength : r.contentLength = some (r.chunks.flatten.length : ℤ))
    (hcontent : keptPrefix r.statusCode hasPrefix pre ++ r.chunks.flatten = content)
    (hhash : H.hash content = norm) :
    (receive s path norm url offset hasPrefix r).1.staging.get? path = some content ∧
      (receive s path norm url offset hasPrefix r).2 = .ok (norm, r.chunks.flatten.length) := by
  obtain ⟨hopened, -, -⟩ := openStaging_spec hcode hstart
  obtain ⟨hholds, hcount, -⟩ := hopened.foldl_receiveChunk r.chunks 0
  rw [hcontent] at hholds
  rw [Nat.zero_add] at hcount
  unfold receive
  rw [if_neg (by omega), if_neg (by omega)]
  generalize openStaging s path r.statusCode hasPrefix = opened at *
  dsimp only
  rw [hbroken, hlength, hcount, hholds.2.digest, hhash]
  simp [hholds.1]

theorem readChunks_pos {data : Bytes} (hchunk : 0 < chunkSize) :
    ∃ bufs, readChunks chunkSize data = some bufs ∧ bufs.flatten = data := by
  refine ⟨boundedChunks chunkSize.toNat data.length data.length data, ?_, ?_⟩
  · rw [readChunks, if_neg (by omega), if_neg (by omega)]
  · rw [flatten_boundedChunks (by omega) le_rfl, List.take_length]

section Resume

variable {chunkSizeBytes : ℤ} {rechunk : List Bytes → List Bytes} {range : Option String} {n : ℕ}
  {staging : Dict String Bytes}

theorem servedBy_served (hval : validateSha256Hex norm = .ok norm)
    (hget : cas.objects.get? norm = some content) (hrechunk : ∀ l, (rechunk l).flatten = l.flatten)
    {r : ByteRange} {body : Bytes}
    (hserved : servedRange maxStrDigits range content.length = some r)
    (hsends : r.Sends content body) :
    ∃ answer, servedBy maxStrDigits cas chunkSizeBytes norm rechunk range = .response answer ∧
      answer.statusCode = (if r.isPartial then 206 else 200) ∧ answer.broken = none ∧
      answer.contentLength = some (answer.chunks.flatten.length : ℤ) ∧
      answer.chunks.flatten = body := by
  obtain ⟨answer, hanswer, hcode, hlength, hbody⟩ :=
    streamAsset_served hval hget hserved hsends chunkSizeBytes
  have hflat : (rechunk answer.chunks).flatten = body := (hrechunk _).trans hbody
  rw [servedBy, hanswer]
  refine ⟨_, rfl, hcode, rfl, ?_, hflat⟩
  rw [hlength, hflat]
  rfl

theorem completes_of {peer : Option String → Connection} {resume : Option Bytes} {hasPrefix : Bool}
    (pre : Bytes) {answer : PeerResponse} (hval : validateSha256Hex sha256 = .ok norm)
    (hrange : requestRange maxStrDigits offset = .ok range)
    (hcopy : copyPrefix ({ staging, hasher := H.init } : Staged H) path url chunkSize offset
      resume = (s, .ok hasPrefix))
    (hstart : Starts s path hasPrefix pre) (hpeer : peer range = .response answer)
    (hcode : answer.statusCode = 200 ∨ answer.statusCode = 206) (hbroken : answer.broken = none)
    (hlength : answer.contentLength = some (answer.chunks.flatten.length : ℤ))
    (hcontent : keptPrefix answer.statusCode hasPrefix pre ++ answer.chunks.flatten = content)
    (hhash : H.hash content = norm) :
    Completes (downloadStreamToStaging H maxStrDigits staging path sha256 url chunkSize offset
      resume peer) path norm content := by
  obtain ⟨hfile, hok⟩ := @receive_complete H norm path url content s offset hasPrefix pre answer
    hstart hcode hbroken hlength hcontent hhash
  have hbody : downloadBody ({ staging, hasher := H.init } : Staged H) path norm url chunkSize
      offset resume (peer range) = receive s path norm url offset hasPrefix answer := by
    rw [downloadBody, hcopy, hpeer]
  unfold downloadStreamToStaging
  rw [hval, hrange]
  dsimp only
  rw [hbody]
  generalize receive s path norm url offset hasPrefix answer = out at *
  obtain ⟨s', res⟩ := out
  obtain rfl : res = _ := hok
  exact ⟨_, rfl, hfile⟩

theorem completes_zero (hval : validateSha256Hex sha256 = .ok norm)
    (hget : cas.objects.get? norm = some content) (hhash : H.hash content = norm)
    (hrechunk : ∀ l, (rechunk l).flatten = l.flatten) (resume : Option Bytes) :
    Completes (downloadStreamToStaging H maxStrDigits staging path sha256 url chunkSize 0 resume
      (servedBy maxStrDigits cas chunkSizeBytes norm rechunk)) path norm content := by
  obtain ⟨answer, hanswer, hcode, hbroken, hlength, hbody⟩ :=
    @servedBy_served maxStrDigits cas norm content chunkSizeBytes rechunk none
      (validateSha256Hex_idem hval) hget hrechunk _ _ (servedRange_of_malformed rfl _)
      (sends_full content)
  have hcopy : copyPrefix ({ staging, hasher := H.init } : Staged H) path url chunkSize 0 resume =
      ({ staging, hasher := H.init }, .ok false) := by
    cases resume <;> simp [copyPrefix]
  refine completes_of [] hval rfl hcopy rfl hanswer (.inl hcode) hbroken hlength ?_ hhash
  simp [keptPrefix, hbody]

/-- A download that has the first bytes, but not all of them. -/
theorem completes_of_lt (hval : validateSha256Hex sha256 = .ok norm)
    (hget : cas.objects.get? norm = some content) (hhash : H.hash content = norm)
    (hrechunk : ∀ l, (rechunk l).flatten = l.flatten) (hchunk : 0 < chunkSize)
    (hpos : 0 < n) (hn : n < content.length) (hconv : Converts maxStrDigits (Nat.toDigits 10 n)) :
    Completes (downloadStreamToStaging H maxStrDigits staging path sha256 url chunkSize n
      (some (content.take n)) (servedBy maxStrDigits cas chunkSizeBytes norm rechunk)) path norm
      content := by
  have hserved : servedRange maxStrDigits (some ("bytes=" ++ toString n ++ "-")) content.length =
      some ⟨n, content.length - 1, content.length - 1 + 1 - n, true⟩ := by
    rw [servedRange_of_wellFormed (askedTexts_resume n), digitsValue_toDigits,
      if_neg (not_not_intro hconv), if_neg (by omega), if_neg (by omega)]
  obtain ⟨answer, hanswer, hcode, hbroken, hlength, hbody⟩ :=
    @servedBy_served maxStrDigits cas norm content chunkSizeBytes rechunk _
      (validateSha256Hex_idem hval) hget hrechunk _ _ hserved (sends_rest hn)
  have hrange : requestRange maxStrDigits n = .ok (some ("bytes=" ++ toString n ++ "-")) := by
    rw [requestRange, if_pos (by omega), Int.toNat_natCast, if_pos hconv]
  obtain ⟨bufs, hbufs, hflat⟩ := @readChunks_pos chunkSize (content.take n) hchunk
  have hcopy : copyPrefix ({ staging, hasher := H.init } : Staged H) path url chunkSize n
      (some (content.take n)) = (bufs.foldl (Staged.write path)
        (({ staging, hasher := H.init } : Staged H).truncate path), .ok true) := by
    have hused : (0 : ℤ) < n ∧ ((content.take n).length : ℤ) = n := by
      rw [List.length_take]
      omega
    rw [copyPrefix, if_pos hused, hbufs]
  have hholds : ({ staging, hasher := H.init } : Staged H).truncate path |>.Holds path [] :=
    Staged.holds_truncate path rfl
  obtain ⟨hstart, -⟩ := hholds.foldl_write bufs
  rw [hflat, List.nil_append] at hstart
  refine completes_of _ hval hrange hcopy hstart hanswer (.inr hcode) hbroken hlength ?_ hhash
  rw [hbody, keptPrefix, if_pos ⟨hcode, rfl⟩, List.take_append_drop]

/-- An answer that is no success is an error. -/
theorem downloadBody_error {path url : String} {resume : Option Bytes} {r : PeerResponse}
    (h200 : r.statusCode ≠ 200) (h206 : r.statusCode ≠ 206) :
    ∃ e, (downloadBody s path norm url chunkSize offset resume (.response r)).2 = .error e := by
  unfold downloadBody
  obtain ⟨s', e | hasPrefix⟩ := copyPrefix s path url chunkSize offset resume
  · exact ⟨e, rfl⟩
  · by_cases h404 : r.statusCode = 404
    · exact ⟨_, by simp only [receive, h404, if_true]; rfl⟩
    · exact ⟨_, by simp only [receive, h404, h200, h206, if_false, ne_eq, not_false_eq_true,
        and_self, if_true]; rfl⟩

/-- A download without an answer or with one that is no success does not complete. -/
theorem not_completes_of_error {peer : Option String → Connection} {resume : Option Bytes}
    (h : ∀ range, requestRange maxStrDigits offset = .ok range → ∃ r, peer range = .response r ∧
      r.statusCode ≠ 200 ∧ r.statusCode ≠ 206) :
    ¬ Completes (downloadStreamToStaging H maxStrDigits staging path sha256 url chunkSize offset
      resume peer) path norm content := by
  rintro ⟨received, hok, -⟩
  unfold downloadStreamToStaging at hok
  cases hval : validateSha256Hex sha256 with
  | error e => rw [hval] at hok; cases hok
  | ok norm' =>
    cases hrange : requestRange maxStrDigits offset with
    | error e => rw [hval, hrange] at hok; cases hok
    | ok range =>
      obtain ⟨r, hpeer, h200, h206⟩ := h range hrange
      obtain ⟨e, he⟩ := @downloadBody_error H norm' chunkSize { staging, hasher := H.init } offset
        path url resume r h200 h206
      rw [hval, hrange] at hok
      dsimp only at hok
      rw [hpeer] at hok
      generalize downloadBody _ path norm' url chunkSize offset resume (.response r) = out at *
      obtain ⟨s', res⟩ := out
      obtain rfl : res = _ := he
      cases hok

/-- **When a resumed download completes**: from every offset before the end of the asset, and from
the first byte. With all bytes there the peer has nothing left to send. -/
theorem resume_iff (hcas : Addressed H.hash cas) (hval : validateSha256Hex sha256 = .ok norm)
    (hget : cas.objects.get? norm = some content)
    (hrechunk : ∀ l, (rechunk l).flatten = l.flatten) (hchunk : 0 < chunkSize)
    (hn : n ≤ content.length) :
    Completes (downloadStreamToStaging H maxStrDigits staging path sha256 url chunkSize n
        (some (content.take n)) (servedBy maxStrDigits cas chunkSizeBytes norm rechunk)) path norm
        content ↔
      n = 0 ∨ (n < content.length ∧ Converts maxStrDigits (Nat.toDigits 10 n)) := by
  have hhash := hcas norm content hget
  constructor
  · intro hcompletes
    by_contra hnot
    push Not at hnot
    obtain ⟨hpos, hlong⟩ := hnot
    refine not_completes_of_error (fun range hrange => ?_) hcompletes
    rw [requestRange, if_pos (by omega), Int.toNat_natCast] at hrange
    by_cases hconv : Converts maxStrDigits (Nat.toDigits 10 n)
    · rw [if_pos hconv] at hrange
      obtain rfl := Except.ok.inj hrange
      have hend : ¬ n < content.length := fun hlt => hlong hlt hconv
      have hserved := @servedRange_eq_none maxStrDigits _ content (readable_resume.2 hconv)
        ⟨_, _, askedTexts_resume n, .inl (by rw [digitsValue_toDigits]; omega)⟩
      have hanswer := streamAsset_unsatisfiable (validateSha256Hex_idem hval) hget hserved
        chunkSizeBytes
      rw [servedBy, hanswer]
      exact ⟨_, rfl, by simp, by simp⟩
    · rw [if_neg hconv] at hrange
      cases hrange
  · rintro (rfl | ⟨hlt, hconv⟩)
    · exact completes_zero hval hget hhash hrechunk _
    · obtain rfl | hpos := Nat.eq_zero_or_pos n
      · exact completes_zero hval hget hhash hrechunk _
      · exact completes_of_lt hval hget hhash hrechunk hchunk hpos hlt hconv

end Resume

/-- A hash that collects the bytes, and knows that of the asset in the sample store. -/
def sampleHashing : IncrementalHash where
  State := Bytes
  init := []
  update := (· ++ ·)
  digest bytes := if bytes = [1, 2] then sampleHash else ""
  hash bytes := if bytes = [1, 2] then sampleHash else ""
  digest_foldl chunks := by
    have hfoldl (l : List Bytes) (acc : Bytes) : l.foldl (· ++ ·) acc = acc ++ l.flatten := by
      induction l generalizing acc with
      | nil => simp
      | cons chunk l ih => simp [ih]
    rw [hfoldl, List.nil_append]

theorem addressed_sampleStore : Addressed sampleHashing.hash sampleStore := by
  intro h data hget
  have hobject : sampleStore.objects.get? h = if h = sampleHash then some [1, 2] else none :=
    Dict.get?_set _ _ _ _
  rw [hobject] at hget
  split_ifs at hget with heq
  · obtain rfl := Option.some.inj hget
    exact heq.symm

theorem validate_sampleHash : validateSha256Hex sampleHash = .ok sampleHash := by
  decide +kernel

theorem get?_sampleStore : sampleStore.objects.get? sampleHash = some [1, 2] := by
  decide +kernel

/-- The second byte completes the first. -/
theorem resume_secondByte :
    Completes (downloadStreamToStaging sampleHashing 4300 ∅ "p" sampleHash "http://peer" 1024
      (1 : ℕ) (some (List.take 1 [1, 2])) (servedBy 4300 sampleStore 0 sampleHash id)) "p"
      sampleHash [1, 2] :=
  (resume_iff addressed_sampleStore validate_sampleHash get?_sampleStore (fun _ => rfl) (by omega)
    (by decide)).2 (.inr ⟨by decide, by decide⟩)

/-- With both bytes there the download fails. -/
theorem resume_bothBytes :
    ¬ ∀ n : ℕ, n ≤ 2 → Completes (downloadStreamToStaging sampleHashing 4300 ∅ "p" sampleHash
      "http://peer" 1024 n (some (List.take n [1, 2]))
      (servedBy 4300 sampleStore 0 sampleHash id)) "p" sampleHash [1, 2] := by
  intro hclaim
  refine not_completes_of_error (fun range hrange => ?_) (hclaim 2 le_rfl)
  obtain rfl : some "bytes=2-" = range := Except.ok.inj hrange
  refine ⟨{ statusCode := 416 }, ?_, by decide, by decide⟩
  have hanswer : streamAsset 4300 sampleStore 0 sampleHash (some "bytes=2-") =
      .ok { statusCode := 416, contentRange := some "bytes */2" } := by
    decide +kernel
  rw [servedBy, hanswer]
  rfl

end LocalCASAdapter

end Aidars
