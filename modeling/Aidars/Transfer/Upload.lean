import Aidars.Transfer.Download

/-!
# Uploads

The upload endpoint writes the body of a request into a temporary file of the staging directory,
hashes it on the way, commits the file to the store and answers that the asset is stored. Other
assets may be deleted meanwhile.

The commit reports a failure by its value, which the endpoint does not look at. `uploadAsset_iff`
says when the answer is right: an asset that is acknowledged is in the store and an error leaves no
temporary file, exactly if the commit does not fail and the file can be removed where it must be.
-/

namespace Aidars

/-- What arrives while the body of a request is read: a chunk, the deletion of an asset by another
request, or what breaks the body off (the client disconnects or a write fails). -/
inductive UploadEvent
  | chunk (data : Bytes)
  | delete (sha256Hex : String) (f : LocalCASAdapter.Faults)
  | broken (text : String)

/-- What fails besides: the creation of the temporary file, calls of the commit, where
`unlinkStaged` also stands for the first removal of the file by the endpoint, and the removal of the
file by the handler of an exception. -/
structure UploadFaults where
  mkstemp : Bool := false
  commit : LocalCASAdapter.Faults := {}
  unlinkAgain : Bool := false

/-- The answer of the endpoint. -/
inductive UploadAnswer
  | present (sizeBytes : ℕ)
  | stored (sizeBytes : ℕ)
  | error (statusCode : ℕ) (detail : String)
  deriving DecidableEq

/-- The client is told that the asset is there. -/
def UploadAnswer.acknowledges : UploadAnswer → Bool
  | .present _ | .stored _ => true
  | .error .. => false

/-- The answer to an exception that is not handled. -/
def UploadAnswer.unhandled : UploadAnswer := .error 500 "Internal Server Error"

/-- The answer to an exception with this text. -/
def UploadAnswer.failed (text : String) : UploadAnswer :=
  .error 500 ("Failed to store uploaded asset: " ++ text)

/-- The state while the body is read. -/
structure Uploading (H : IncrementalHash) where
  cas : LocalCASAdapter
  hasher : H.State
  totalBytes : ℕ

/-- A chunk is written to the end of the temporary file, and hashed. -/
def Uploading.write {H : IncrementalHash} (path : String) (u : Uploading H) (data : Bytes) :
    Uploading H :=
  let file := (u.cas.staging.get? path).getD []
  { cas := { u.cas with staging := u.cas.staging.set path (file ++ data) }
    hasher := H.update u.hasher data
    totalBytes := u.totalBytes + data.length }

namespace LocalCASAdapter

/-- Deletions by other requests. -/
def deleteAll (cas : LocalCASAdapter) (deletions : List (String × Faults)) : LocalCASAdapter :=
  deletions.foldl (fun cas d => (cas.deleteAsset d.1 d.2).1) cas

/-- Read the body into the temporary file. The answer is the text of the exception that breaks it
off, if there is one. -/
def receiveBody {H : IncrementalHash} (path : String) :
    Uploading H → List UploadEvent → Uploading H × Option String
  | u, [] => (u, none)
  | u, .chunk data :: es =>
    receiveBody path (if data = [] then u else u.write path data) es
  | u, .delete sha256Hex f :: es =>
    receiveBody path { u with cas := (u.cas.deleteAsset sha256Hex f).1 } es
  | u, .broken text :: _ => (u, some text)

/-- Remove the temporary file in the handler of an exception, and answer with an error. -/
def handleException (cas : LocalCASAdapter) (path : String) (f : UploadFaults)
    (answer : UploadAnswer) : LocalCASAdapter × UploadAnswer :=
  if f.unlinkAgain && (cas.staging.get? path).isSome then (cas, .unhandled)
  else ({ cas with staging := cas.staging.erase path }, answer)

/-- Upload an asset; `path` is the name that `mkstemp` makes, and `later` are the deletions between
the commit and the answer. -/
def uploadAsset (H : IncrementalHash) (cas : LocalCASAdapter) (sha256 path : String)
    (body : List UploadEvent) (later : List (String × Faults)) (f : UploadFaults) :
    LocalCASAdapter × UploadAnswer :=
  match validateSha256Hex sha256 with
  | .error _ => (cas, .error 400 "Invalid SHA-256 hash format (must be 64 hex characters)")
  | .ok norm =>
    if cas.hasAsset norm then
      (cas, .present (((cas.objects.get? norm).map List.length).getD 0))
    else if f.mkstemp then (cas, .unhandled)
    else
      let opened : LocalCASAdapter := { cas with staging := cas.staging.set path [] }
      match receiveBody path { cas := opened, hasher := H.init, totalBytes := 0 } body with
      | (u, some text) => handleException u.cas path f (.failed text)
      | (u, none) =>
        let actualHash := H.digest u.hasher
        if actualHash ≠ norm then
          if f.commit.unlinkStaged then handleException u.cas path f (.failed "OSError")
          else
            handleException { u.cas with staging := u.cas.staging.erase path } path f
              (.error 400 ("SHA-256 mismatch: expected " ++ norm ++ ", got " ++ actualHash))
        else
          match commitStagedFile H.hash u.cas path norm f.commit with
          -- the value of the commit is not looked at
          | (cas, .ok _) => (cas.deleteAll later, .stored u.totalBytes)
          | (cas, .error _) => handleException cas path f (.failed "OSError")

/-! ## What is acknowledged -/

/-- An asset that is acknowledged is in the store, and an error leaves no temporary file. -/
def Honest (norm path : String) (out : LocalCASAdapter × UploadAnswer) : Prop :=
  if out.2.acknowledges then out.1.hasAsset norm = true else out.1.staging.get? path = none

/-- The bytes of a body, if it arrives completely. -/
def bodyBytes : List UploadEvent → Option Bytes
  | [] => some []
  | .chunk data :: es => (bodyBytes es).map (data ++ ·)
  | .delete .. :: es => bodyBytes es
  | .broken _ :: _ => none

/-- The deletions while a body is read. -/
def bodyDeletions : List UploadEvent → List String
  | [] => []
  | .delete sha256Hex _ :: es => sha256Hex :: bodyDeletions es
  | .chunk _ :: es | .broken _ :: es => bodyDeletions es

/-- When an upload is answered honestly. A body that is broken off must be removed by the handler,
one with another hash by one of the two attempts, and the commit of the asset must not fail, unless
that is an exception and the handler removes the file. -/
def UploadClean (hash : Bytes → String) (norm : String) (body : List UploadEvent)
    (f : UploadFaults) : Prop :=
  match bodyBytes body with
  | none => f.unlinkAgain = false
  | some data =>
    if hash data ≠ norm then f.commit.unlinkStaged = false ∨ f.unlinkAgain = false
    else (f.commit.read = false ∧ f.commit.mkdir = false ∧ f.commit.replace = false) ∨
      (f.commit.unlinkStaged = true ∧ f.unlinkAgain = false)

variable {H : IncrementalHash} {cas : LocalCASAdapter} {sha256 norm path h : String}
  {file data : Bytes} {f : UploadFaults}

/-! ### Deletions of other assets -/

theorem staging_deleteAsset (cas : LocalCASAdapter) (sha256Hex : String) (f : Faults) :
    (cas.deleteAsset sha256Hex f).1.staging = cas.staging := by
  obtain ⟨hnone, -⟩ | ⟨h, -, -, -, hdel⟩ := deleteAsset_spec cas sha256Hex f
  · rw [hnone]
  · rw [hdel]

/-- A deletion of another asset leaves an object alone. -/
theorem get?_deleteAsset (hother : validateSha256Hex h ≠ .ok norm) (f : Faults) :
    (cas.deleteAsset h f).1.objects.get? norm = cas.objects.get? norm := by
  obtain ⟨hnone, -⟩ | ⟨h', hval, -, -, hdel⟩ := deleteAsset_spec cas h f
  · rw [hnone]
  · have hne : norm ≠ h' := fun heq => hother (heq ▸ hval)
    rw [hdel, Dict.get?_erase, if_neg hne]

theorem get?_deleteAll (deletions : List (String × Faults))
    (hother : ∀ d ∈ deletions, validateSha256Hex d.1 ≠ .ok norm) :
    (cas.deleteAll deletions).objects.get? norm = cas.objects.get? norm := by
  induction deletions generalizing cas with
  | nil => rfl
  | cons d deletions ih =>
    obtain ⟨hd, hrest⟩ := List.forall_mem_cons.1 hother
    exact (ih hrest).trans (get?_deleteAsset hd d.2)

/-! ### The body -/

/-- The temporary file has these bytes, and they were fed to the hasher; the asset is not there. -/
structure Reading (norm path : String) (u : Uploading H) (file : Bytes) : Prop where
  staged : u.cas.staging.get? path = some file
  fed : H.Fed u.hasher file
  absent : u.cas.objects.get? norm = none

theorem Reading.write {u : Uploading H} (hu : Reading norm path u file) (data : Bytes) :
    Reading norm path (u.write path data) (file ++ data) where
  staged := by simp [Uploading.write, hu.staged]
  fed := hu.fed.update
  absent := hu.absent

theorem Reading.delete {u : Uploading H} (hu : Reading norm path u file)
    (hother : validateSha256Hex h ≠ .ok norm) (f : Faults) :
    Reading norm path { u with cas := (u.cas.deleteAsset h f).1 } file where
  staged := by
    dsimp only
    rw [staging_deleteAsset, hu.staged]
  fed := hu.fed
  absent := by
    dsimp only
    rw [get?_deleteAsset hother, hu.absent]

/-- The body is in the file once it is read. If it is broken off the file is there too. -/
theorem receiveBody_spec {u : Uploading H} (hu : Reading norm path u file) (es : List UploadEvent)
    (hother : ∀ d ∈ bodyDeletions es, validateSha256Hex d ≠ .ok norm) :
    ∃ file', Reading norm path (receiveBody path u es).1 file' ∧
      match bodyBytes es with
      | some data => (receiveBody path u es).2 = none ∧ file' = file ++ data
      | none => ∃ text, (receiveBody path u es).2 = some text := by
  induction es generalizing u file with
  | nil => exact ⟨file, hu, rfl, (List.append_nil file).symm⟩
  | cons e es ih =>
    cases e with
    | chunk data =>
      have hnext :
          Reading norm path (if data = [] then u else u.write path data) (file ++ data) := by
        split_ifs with hempty
        · rwa [hempty, List.append_nil]
        · exact hu.write data
      obtain ⟨file', hread, hend⟩ := ih hnext hother
      refine ⟨file', hread, ?_⟩
      rw [bodyBytes]
      cases hbytes : bodyBytes es with
      | none => rwa [hbytes] at hend
      | some rest =>
        rw [hbytes] at hend
        exact ⟨hend.1, hend.2.trans (List.append_assoc file data rest)⟩
    | delete sha256Hex f =>
      obtain ⟨hd, hrest⟩ := List.forall_mem_cons.1 hother
      exact ih (hu.delete hd f) hrest
    | broken text => exact ⟨file, hu, text, rfl⟩

/-! ### The answer -/

theorem commit_matching (hfile : cas.staging.get? path = some file)
    (hval : validateSha256Hex norm = .ok norm) (hhash : H.hash file = norm)
    (habsent : cas.objects.get? norm = none) (f : Faults) :
    commitStagedFile H.hash cas path norm f =
      if f.read || f.mkdir || f.replace then discardStaged cas path f (.ok false)
      else ({ objects := cas.objects.set norm file, staging := cas.staging.erase path },
        .ok true) := by
  rw [commitStagedFile, hfile, hval]
  dsimp only
  rw [habsent, hhash]
  cases f.read <;> cases f.mkdir <;> cases f.replace <;> simp

theorem honest_handleException (hfile : (cas.staging.get? path).isSome) {code : ℕ}
    {detail : String} :
    Honest norm path (handleException cas path f (.error code detail)) ↔ f.unlinkAgain = false := by
  unfold handleException
  cases f.unlinkAgain with
  | false => simp [Honest, UploadAnswer.acknowledges]
  | true =>
    rw [hfile]
    have hne : cas.staging.get? path ≠ none := Option.isSome_iff_ne_none.1 hfile
    simp [Honest, UploadAnswer.acknowledges, UploadAnswer.unhandled, hne]

/-- The end of an upload whose body has been read. -/
theorem honest_commit {later : List (String × Faults)} (n : ℕ)
    (hfile : cas.staging.get? path = some file) (hval : validateSha256Hex norm = .ok norm)
    (hhash : H.hash file = norm) (habsent : cas.objects.get? norm = none)
    (hlater : ∀ d ∈ later, validateSha256Hex d.1 ≠ .ok norm) :
    Honest norm path (match commitStagedFile H.hash cas path norm f.commit with
      | (cas, .ok _) => (cas.deleteAll later, .stored n)
      | (cas, .error _) => handleException cas path f (.failed "OSError")) ↔
      (f.commit.read = false ∧ f.commit.mkdir = false ∧ f.commit.replace = false) ∨
        (f.commit.unlinkStaged = true ∧ f.unlinkAgain = false) := by
  rw [commit_matching hfile hval hhash habsent]
  have hasset (cas : LocalCASAdapter) : (cas.deleteAll later).hasAsset norm =
      (cas.objects.get? norm).isSome := by
    rw [hasAsset, hval]
    exact congrArg Option.isSome (get?_deleteAll later hlater)
  split_ifs with hfails
  · have hnot : ¬ (f.commit.read = false ∧ f.commit.mkdir = false ∧ f.commit.replace = false) := by
      rintro ⟨hread, hmkdir, hreplace⟩
      simp [hread, hmkdir, hreplace] at hfails
    rw [or_iff_right hnot]
    cases hunlink : f.commit.unlinkStaged with
    | false =>
      rw [discardStaged_ok hunlink]
      simp [Honest, UploadAnswer.acknowledges, hasset, habsent]
    | true =>
      rw [discardStaged_error hunlink]
      have hsome : (cas.staging.get? path).isSome := by
        rw [hfile]
        rfl
      rw [eq_self, true_and]
      exact honest_handleException hsome
  · refine iff_of_true ?_ (.inl (by simpa [and_assoc] using hfails))
    simp [Honest, UploadAnswer.acknowledges, hasset]

theorem honest_upload {body : List UploadEvent} {later : List (String × Faults)}
    (hval : validateSha256Hex sha256 = .ok norm) (habsent : cas.hasAsset norm = false)
    (hmkstemp : f.mkstemp = false)
    (hbody : ∀ d ∈ bodyDeletions body, validateSha256Hex d ≠ .ok norm)
    (hlater : ∀ d ∈ later, validateSha256Hex d.1 ≠ .ok norm) :
    Honest norm path (uploadAsset H cas sha256 path body later f) ↔
      UploadClean H.hash norm body f := by
  have hnorm := validateSha256Hex_idem hval
  have hobject : cas.objects.get? norm = none := by
    rw [hasAsset, hnorm] at habsent
    exact Option.not_isSome_iff_eq_none.1 (by simpa using habsent)
  have hopened : Reading norm path (H := H)
      { cas := { cas with staging := cas.staging.set path [] }, hasher := H.init, totalBytes := 0 }
      [] := ⟨by simp, IncrementalHash.fed_init, hobject⟩
  obtain ⟨file, hread, hend⟩ := receiveBody_spec hopened body hbody
  rw [uploadAsset, hval]
  dsimp only
  rw [if_neg (by simp [habsent]), if_neg (by simp [hmkstemp])]
  unfold UploadClean
  generalize receiveBody path _ body = out at *
  obtain ⟨u, text⟩ := out
  have hsome : (u.cas.staging.get? path).isSome := by
    rw [hread.staged]
    rfl
  cases hbytes : bodyBytes body with
  | none =>
    rw [hbytes] at hend
    obtain ⟨text, rfl⟩ := hend
    exact honest_handleException hsome
  | some data =>
    rw [hbytes] at hend
    obtain ⟨rfl, hfile⟩ := hend
    rw [List.nil_append] at hfile
    subst hfile
    dsimp only
    rw [hread.fed.digest]
    by_cases hhash : H.hash file = norm
    · rw [if_neg (not_not_intro hhash), if_neg (not_not_intro hhash)]
      exact honest_commit _ hread.staged hnorm hhash hread.absent hlater
    · rw [if_pos hhash, if_pos hhash]
      cases hunlink : f.commit.unlinkStaged with
      | true =>
        rw [if_pos rfl, or_iff_right (by decide)]
        exact honest_handleException hsome
      | false =>
        simp [handleException, Honest, UploadAnswer.acknowledges]

/-- **When uploads are acknowledged honestly.** With deletions of other assets going on, an asset
that is acknowledged is in the store and an error leaves no temporary file, exactly if the upload of
an asset that is not in the store is clean. -/
theorem uploadAsset_iff {body : List UploadEvent} {later : List (String × Faults)}
    (hfresh : cas.staging.get? path = none)
    (hbody : ∀ d ∈ bodyDeletions body, validateSha256Hex d ≠ validateSha256Hex sha256)
    (hlater : ∀ d ∈ later, validateSha256Hex d.1 ≠ validateSha256Hex sha256) :
    Honest sha256 path (uploadAsset H cas sha256 path body later f) ↔
      ∀ norm, validateSha256Hex sha256 = .ok norm → cas.hasAsset norm = false →
        f.mkstemp = false → UploadClean H.hash norm body f := by
  cases hval : validateSha256Hex sha256 with
  | error e =>
    refine iff_of_true ?_ nofun
    rw [uploadAsset, hval]
    simpa [Honest, UploadAnswer.acknowledges] using hfresh
  | ok norm =>
    rw [hval] at hbody hlater
    have hsame : Honest sha256 path (uploadAsset H cas sha256 path body later f) ↔
        Honest norm path (uploadAsset H cas sha256 path body later f) := by
      unfold Honest
      rw [hasAsset_congr hval]
    rw [hsame]
    cases hasset : cas.hasAsset norm with
    | true =>
      refine iff_of_true ?_ fun norm' h habsent => ?_
      · rw [uploadAsset, hval]
        simp [hasset, Honest, UploadAnswer.acknowledges]
      · rw [← Except.ok.inj h, hasset] at habsent
        cases habsent
    | false =>
      cases hmkstemp : f.mkstemp with
      | true =>
        refine iff_of_true ?_ fun _ _ _ => nofun
        rw [uploadAsset, hval]
        simpa [hasset, hmkstemp, Honest, UploadAnswer.acknowledges, UploadAnswer.unhandled]
          using hfresh
      | false =>
        rw [honest_upload hval hasset hmkstemp hbody hlater]
        constructor
        · intro h norm' heq _ _
          exact Except.ok.inj heq ▸ h
        · exact fun h => h norm rfl hasset rfl

/-- A body of two chunks, between which another asset is deleted. -/
def sampleBody : List UploadEvent :=
  [.chunk [1], .delete (String.ofList (List.replicate 64 'b')) {}, .chunk [2]]

/-- An upload of an asset while another one is deleted. -/
theorem uploadAsset_stored :
    Honest sampleHash "tmp" (uploadAsset sampleHashing {} sampleHash "tmp" sampleBody [] {}) := by
  have hbody : ∀ d ∈ bodyDeletions sampleBody,
      validateSha256Hex d ≠ validateSha256Hex sampleHash := by
    intro d hd
    obtain rfl := List.mem_singleton.1 hd
    decide +kernel
  have hlater : ∀ d ∈ ([] : List (String × Faults)),
      validateSha256Hex d.1 ≠ validateSha256Hex sampleHash := by
    simp
  refine (uploadAsset_iff (Dict.get?_empty _) hbody hlater).2 fun norm hval _ _ => ?_
  obtain rfl := Except.ok.inj (validate_sampleHash.symm.trans hval)
  have hhash : sampleHashing.hash [1, 2] = sampleHash := by
    change (if [1, 2] = [1, 2] then sampleHash else "") = sampleHash
    exact if_pos rfl
  simp [UploadClean, sampleBody, bodyBytes, hhash]

/-- A commit that cannot rename the file is answered as if it had. -/
theorem uploadAsset_not_stored :
    ¬ ∀ f : UploadFaults, f.commit.unlinkStaged = false → f.unlinkAgain = false →
      Honest sampleHash "tmp" (uploadAsset sampleHashing {} sampleHash "tmp" [.chunk [1, 2]] []
        f) := by
  intro hclaim
  have h := hclaim { commit := { replace := true } } rfl rfl
  have hout : uploadAsset sampleHashing {} sampleHash "tmp" [.chunk [1, 2]] []
      { commit := { replace := true } } = ({}, .stored 2) := by
    decide +kernel
  rw [hout] at h
  have hasset : ({} : LocalCASAdapter).hasAsset sampleHash = true := h
  exact absurd hasset (by decide +kernel)

end LocalCASAdapter

end Aidars
