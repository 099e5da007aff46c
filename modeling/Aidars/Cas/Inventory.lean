import Aidars.Cas.Adapter

/-!
# The objects directory and the inventory

The objects of the store are files in shard directories: `objects/XX/<hash>`, where `XX` are the
first two characters of the hash. `ObjectsDir` is this tree, and `ObjectsDir.result` says what an
operation of `LocalCASAdapter` does to it: a commit makes the shard directory and renames the staged
file into it, a deletion unlinks the file and removes the shard directory if it is empty.

In a reachable store every file is in the shard of its name, and its name is a digest
(`Layout.Sharded`). Missing hashes are therefore found alike by looking up each file and by listing
all of them (`getMissingHashes_spec`).
-/

namespace Aidars

/-- The `objects` directory: the files of each shard directory. -/
structure ObjectsDir where
  shards : Dict String (Dict String Bytes) := ∅
  deriving DecidableEq

namespace ObjectsDir

open LocalCASAdapter (Action Faults createStagingFile targetHash)

/-- The name of the shard directory of a hash. -/
def shardOf (normalized : String) : String := (normalized.take 2).toString

/-- The file with this name in this shard directory. -/
def file? (dir : ObjectsDir) (shard name : String) : Option Bytes :=
  (dir.shards.get? shard).bind (·.get? name)

/-- The object of a hash is a file. -/
def isFile (dir : ObjectsDir) (normalized : String) : Bool :=
  (dir.file? (shardOf normalized) normalized).isSome

/-! ## Operations -/

/-- Make a shard directory, unless it exists. -/
def mkdir (dir : ObjectsDir) (shard : String) : ObjectsDir :=
  if (dir.shards.get? shard).isSome then dir else ⟨dir.shards.set shard ∅⟩

/-- Rename a file into its shard directory. -/
def replace (dir : ObjectsDir) (normalized : String) (data : Bytes) : ObjectsDir :=
  ⟨dir.shards.modify (shardOf normalized) fun files => files.set normalized data⟩

/-- The part of a commit after the hash was checked. -/
def commit (dir : ObjectsDir) (normalized : String) (data : Bytes) (f : Faults) : ObjectsDir :=
  if f.mkdir then dir
  else
    let dir := dir.mkdir (shardOf normalized)
    if dir.isFile normalized || f.replace then dir else dir.replace normalized data

/-- Delete the object of a hash, and its shard directory if that is now empty. -/
def delete (dir : ObjectsDir) (normalized : String) (f : Faults) (rmdirFails : Bool) : ObjectsDir :=
  if !dir.isFile normalized || f.unlinkObject then dir
  else
    let shard := shardOf normalized
    let files := ((dir.shards.get? shard).getD ∅).erase normalized
    if f.listShard || !files.keys.isEmpty || rmdirFails then ⟨dir.shards.set shard files⟩
    else ⟨dir.shards.erase shard⟩

/-- What a commit of a staging file does to the objects directory. -/
def commitStagedFile (sha256 : Bytes → String) (dir : ObjectsDir) (staged : Option Bytes)
    (expectedSha256 : String) (f : Faults) : ObjectsDir :=
  match staged, validateSha256Hex expectedSha256 with
  | some data, .ok normExpected =>
    if f.read || sha256 data ≠ normExpected then dir else dir.commit normExpected data f
  | _, _ => dir

/-- What an operation does to the objects directory. -/
def result (sha256 : Bytes → String) (dir : ObjectsDir) (cas : LocalCASAdapter)
    (rmdirFails : Bool) : Action → ObjectsDir
  | .storeBytes data _ f =>
    if f.write.isSome then dir else dir.commitStagedFile sha256 (some data) (sha256 data) f
  | .storeFile _ (some data) expectedSha256 _ f =>
    let target := targetHash sha256 data expectedSha256
    if f.write.isSome || sha256 data ≠ target then dir
    else dir.commitStagedFile sha256 (some data) target f
  | .commitStagedFile staged expectedSha256 f =>
    dir.commitStagedFile sha256 (cas.staging.get? staged) expectedSha256 f
  | .deleteAsset sha256Hex f =>
    match validateSha256Hex sha256Hex with
    | .ok normalized => dir.delete normalized f rmdirFails
    | .error _ => dir
  | .storeFile _ none .. | .stage .. | .pruneStaging .. => dir

/-! ## Queries -/

/-- The asset is in the store. -/
def hasAsset (dir : ObjectsDir) (sha256Hex : String) : Bool :=
  match validateSha256Hex sha256Hex with
  | .ok normalized => dir.isFile normalized
  | .error _ => false

/-- One file of the inventory: its name is added if it is a hash. -/
def inventoryFile (hashes : PySet String) (name : String) : PySet String :=
  match validateSha256Hex name with
  | .ok norm => hashes.insert norm
  | .error _ => hashes

/-- The hashes of all files in all shard directories. -/
def getInventoryHashes (dir : ObjectsDir) : PySet String :=
  dir.shards.values.foldl (fun hashes files => files.keys.foldl inventoryFile hashes) ∅

/-- What is reported of a request that is no hash. -/
def reportedText : Option String → String
  | some raw => String.ofList (lower (strip raw.toList))
  | none => "none"

/-- The hash that a request names. -/
def requestedHash : Option String → Option String
  | some raw => (validateSha256Hex raw).toOption
  | none => none

/-- One request: it joins the missing or the valid ones. -/
def sortRequest (acc : PySet String × PySet String) (raw : Option String) :
    PySet String × PySet String :=
  match requestedHash raw with
  | some norm => (acc.1, acc.2.insert norm)
  | none => (acc.1.insert (reportedText raw), acc.2)

/-- The requests that are missing since they are no hashes, and the valid ones. -/
def sortRequests (requests : List (Option String)) : PySet String × PySet String :=
  requests.foldl sortRequest (∅, ∅)

/-- The fast path: the inventory is listed. -/
def missingByInventory (dir : ObjectsDir) (missing valid : PySet String) : PySet String :=
  missing.union (valid.diff dir.getInventoryHashes)

/-- One file is looked up. -/
def missingFile (dir : ObjectsDir) (missing : PySet String) (norm : String) : PySet String :=
  if dir.isFile norm then missing else missing.insert norm

/-- The slow path: every file is looked up. -/
def missingByFile (dir : ObjectsDir) (missing valid : PySet String) : PySet String :=
  valid.toList.foldl dir.missingFile missing

/-- The requested hashes that are not in the store. -/
def getMissingHashes (dir : ObjectsDir) (requests : List (Option String)) : PySet String :=
  let (missing, valid) := sortRequests requests
  if valid = ∅ then missing
  else if valid.toList.length > 32 then dir.missingByInventory missing valid
  else dir.missingByFile missing valid

end ObjectsDir

/-- The store with its objects directory. -/
structure Layout where
  cas : LocalCASAdapter := {}
  dir : ObjectsDir := {}
  deriving DecidableEq

namespace Layout

open LocalCASAdapter (Action Faults Fresh createStagingFile targetHash)
open ObjectsDir (shardOf requestedHash reportedText sortRequests)

variable (sha256 : Bytes → String)

/-- An operation, with whether the removal of a shard directory fails. -/
def step (s : Layout) (a : Action × Bool) : Option Layout :=
  (LocalCASAdapter.step sha256 s.cas a.1).map fun cas =>
    { cas, dir := s.dir.result sha256 s.cas a.2 a.1 }

end Layout

/-! ## The files of a reachable store -/

namespace ObjectsDir

open LocalCASAdapter (Action Faults createStagingFile targetHash discardStaged)

/-- The files are the objects, each in the shard of its hash, and every name is a digest. -/
structure Holds (dir : ObjectsDir) (objects : Dict String Bytes) : Prop where
  file shard name : dir.file? shard name =
    if shard = shardOf name then objects.get? name else none
  digest name : (objects.get? name).isSome → IsDigest name

variable {sha256 : Bytes → String} {dir : ObjectsDir} {cas : LocalCASAdapter}
  {objects : Dict String Bytes} {norm shard name : String} {data : Bytes} {f : Faults}

theorem Holds.isFile (h : dir.Holds objects) : dir.isFile name = (objects.get? name).isSome := by
  simp [ObjectsDir.isFile, h.file]

@[simp] theorem file?_mkdir : (dir.mkdir norm).file? shard name = dir.file? shard name := by
  unfold mkdir file?
  split_ifs with hshard
  · rfl
  · by_cases heq : shard = norm
    · subst heq
      simp [Option.not_isSome_iff_eq_none.1 hshard]
    · simp [heq]

theorem isSome_shards_mkdir : ((dir.mkdir shard).shards.get? shard).isSome := by
  unfold mkdir
  split_ifs with h
  · exact h
  · simp

theorem file?_replace (hshard : (dir.shards.get? (shardOf norm)).isSome) :
    (dir.replace norm data).file? shard name =
      if shard = shardOf norm ∧ name = norm then some data else dir.file? shard name := by
  obtain ⟨files, hfiles⟩ := Option.isSome_iff_exists.1 hshard
  by_cases heq : shard = shardOf norm
  · subst heq
    simp [replace, file?, hfiles]
  · simp [replace, file?, heq]

theorem file?_unlink (files : Dict String Bytes)
    (hfiles : dir.shards.get? (shardOf norm) = some files) :
    (⟨dir.shards.set (shardOf norm) (files.erase norm)⟩ : ObjectsDir).file? shard name =
      if shard = shardOf norm ∧ name = norm then none else dir.file? shard name := by
  by_cases heq : shard = shardOf norm
  · subst heq
    simp [file?, hfiles]
  · simp [file?, heq]

/-- The shard directory of a file is removed with its last file. -/
theorem file?_rmdir (files : Dict String Bytes)
    (hfiles : dir.shards.get? (shardOf norm) = some files) (hempty : (files.erase norm).keys = []) :
    (⟨dir.shards.erase (shardOf norm)⟩ : ObjectsDir).file? shard name =
      if shard = shardOf norm ∧ name = norm then none else dir.file? shard name := by
  by_cases heq : shard = shardOf norm
  · subst heq
    have hnone : (files.erase norm).get? name = none := by
      rw [← Option.not_isSome_iff_eq_none, Option.isSome_iff_exists, ← Dict.mem_keys, hempty]
      exact List.not_mem_nil
    rw [Dict.get?_erase] at hnone
    simpa [file?, hfiles] using hnone.symm
  · simp [file?, heq]

theorem Holds.set (h : dir.Holds objects) (hnorm : IsDigest norm) {dir' : ObjectsDir}
    (hfile : ∀ shard name, dir'.file? shard name =
      if shard = shardOf norm ∧ name = norm then some data else dir.file? shard name) :
    dir'.Holds (objects.set norm data) where
  file shard name := by
    rw [hfile, h.file, Dict.get?_set]
    by_cases hname : name = norm
    · subst hname
      by_cases hshard : shard = shardOf name <;> simp [hshard]
    · simp [hname]
  digest name := by
    rw [Dict.get?_set]
    split_ifs with hname
    · exact fun _ => hname ▸ hnorm
    · exact h.digest name

theorem Holds.erase (h : dir.Holds objects) {dir' : ObjectsDir}
    (hfile : ∀ shard name, dir'.file? shard name =
      if shard = shardOf norm ∧ name = norm then none else dir.file? shard name) :
    dir'.Holds (objects.erase norm) where
  file shard name := by
    rw [hfile, h.file, Dict.get?_erase]
    by_cases hname : name = norm
    · subst hname
      by_cases hshard : shard = shardOf name <;> simp [hshard]
    · simp [hname]
  digest name := by
    rw [Dict.get?_erase]
    split_ifs with hname
    · intro hsome
      cases hsome
    · exact h.digest name

theorem Holds.commit (h : dir.Holds objects) (hnorm : IsDigest norm) (data : Bytes) (f : Faults) :
    (dir.commit norm data f).Holds
      (if f.mkdir || (objects.get? norm).isSome || f.replace then objects
        else objects.set norm data) := by
  have hmade : (dir.mkdir (shardOf norm)).Holds objects :=
    ⟨fun shard name => by rw [file?_mkdir, h.file], h.digest⟩
  unfold ObjectsDir.commit
  cases f.mkdir with
  | true => simpa using h
  | false =>
    simp only [hmade.isFile, Bool.false_or, Bool.false_eq_true, if_false]
    split_ifs with hkept
    · exact hmade
    · exact hmade.set hnorm fun shard name => file?_replace isSome_shards_mkdir

theorem Holds.delete (h : dir.Holds objects) (norm : String) (f : Faults) (rmdirFails : Bool) :
    (dir.delete norm f rmdirFails).Holds
      (if (objects.get? norm).isNone || f.unlinkObject then objects else objects.erase norm) := by
  unfold ObjectsDir.delete
  rw [h.isFile, Option.not_isSome]
  split_ifs with hkept
  · exact h
  · have hsome : (dir.file? (shardOf norm) norm).isSome := by
      rw [h.file, if_pos rfl, Option.isSome_iff_ne_none]
      simp only [Bool.or_eq_true, Option.isNone_iff_eq_none, not_or] at hkept
      exact hkept.1
    obtain ⟨files, hfiles⟩ : ∃ files, dir.shards.get? (shardOf norm) = some files :=
      Option.isSome_iff_exists.1 (Option.isSome_of_isSome_bind hsome)
    simp only [hfiles, Option.getD_some]
    split_ifs with hstays
    · exact h.erase fun shard name => file?_unlink files hfiles
    · have hempty : (files.erase norm).keys = [] := by
        simp only [Bool.or_eq_true, not_or, Bool.not_eq_true', Bool.not_eq_false] at hstays
        exact List.isEmpty_iff.1 hstays.1.2
      exact h.erase fun shard name => file?_rmdir files hfiles hempty

theorem objects_discardStaged {α : Type} {staged : String} {answer : Except _ α} :
    (discardStaged cas staged f answer).1.objects = cas.objects := by
  unfold discardStaged
  split_ifs <;> rfl

theorem Holds.commitStagedFile (h : dir.Holds cas.objects) (staged expected : String) :
    (dir.commitStagedFile sha256 (cas.staging.get? staged) expected f).Holds
      (LocalCASAdapter.commitStagedFile sha256 cas staged expected f).1.objects := by
  unfold LocalCASAdapter.commitStagedFile ObjectsDir.commitStagedFile
  cases cas.staging.get? staged with
  | none => exact h
  | some data =>
    cases hval : validateSha256Hex expected with
    | error e => simpa only [objects_discardStaged] using h
    | ok norm =>
      have hcommit := h.commit (validateSha256Hex_isDigest hval) data f
      dsimp only
      cases hread : f.read with
      | true => simpa [objects_discardStaged] using h
      | false =>
        by_cases hhash : sha256 data = norm
        · simp only [hhash, ne_eq, not_true_eq_false, decide_false, Bool.or_self, if_false,
            Bool.false_eq_true]
          refine cast (congrArg _ ?_) hcommit
          cases f.mkdir <;> cases (cas.objects.get? norm).isSome <;> cases f.replace <;>
            simp [objects_discardStaged]
        · simpa [hhash, objects_discardStaged] using h

theorem Holds.staged (h : dir.Holds cas.objects) (staged : String) (data : Bytes)
    (expected : String) :
    (dir.commitStagedFile sha256 (some data) expected f).Holds
      (LocalCASAdapter.commitStagedFile sha256
        { cas with staging := cas.staging.set staged data } staged expected f).1.objects := by
  have hwritten : dir.Holds
      ({ cas with staging := cas.staging.set staged data } : LocalCASAdapter).objects := h
  have hcommit := @Holds.commitStagedFile sha256 _ _ f hwritten staged expected
  rwa [Dict.get?_set, if_pos rfl] at hcommit

/-- **The files of the store are its objects**, after every operation. -/
theorem Holds.result {a : Action} (h : dir.Holds cas.objects) (rmdirFails : Bool) :
    (dir.result sha256 cas rmdirFails a).Holds (LocalCASAdapter.result sha256 cas a).1.objects := by
  cases a with
  | stage => exact h
  | pruneStaging expired f =>
    exact cast (congrArg _ (LocalCASAdapter.objects_pruneStaging expired f).symm) h
  | commitStagedFile staged expected f => exact h.commitStagedFile staged expected
  | deleteAsset sha256Hex f =>
    simp only [ObjectsDir.result, LocalCASAdapter.result, LocalCASAdapter.deleteAsset]
    cases validateSha256Hex sha256Hex with
    | error e => exact h
    | ok norm =>
      refine cast (congrArg _ ?_) (h.delete norm f rmdirFails)
      dsimp only
      split_ifs <;> rfl
  | storeBytes data uuid f =>
    simp only [ObjectsDir.result, LocalCASAdapter.result, LocalCASAdapter.storeBytes]
    rcases f.write with _ | _ | part
    · exact h.staged _ data _
    · exact h
    · exact h
  | storeFile src source expected uuid f =>
    cases source with
    | none => exact h
    | some data =>
      simp only [ObjectsDir.result, LocalCASAdapter.result, LocalCASAdapter.storeFile]
      rcases f.write with _ | _ | part
      · by_cases htarget : sha256 data = targetHash sha256 data expected
        · simpa only [htarget, ne_eq, not_true_eq_false, decide_false, Option.isSome_none,
            Bool.or_self, if_false, Bool.false_eq_true] using h.staged _ data _
        · simpa [htarget, objects_discardStaged] using h
      · exact h
      · simpa [objects_discardStaged] using h

/-! ## Missing hashes -/

theorem mem_inventoryFile (hashes : PySet String) (name x : String) :
    x ∈ inventoryFile hashes name ↔ validateSha256Hex name = .ok x ∨ x ∈ hashes := by
  unfold inventoryFile
  cases validateSha256Hex name with
  | ok norm => simp [eq_comm]
  | error e => simp

theorem mem_getInventoryHashes (x : String) : x ∈ dir.getInventoryHashes ↔
    ∃ shard name, (dir.file? shard name).isSome ∧ validateSha256Hex name = .ok x := by
  have hfiles (hashes : PySet String) (files : Dict String Bytes) (x : String) :
      x ∈ files.keys.foldl inventoryFile hashes ↔
        (∃ name ∈ files.keys, validateSha256Hex name = .ok x) ∨ x ∈ hashes :=
    PySet.mem_foldl mem_inventoryFile files.keys hashes x
  unfold getInventoryHashes
  rw [PySet.mem_foldl hfiles, or_iff_left (PySet.notMem_empty x)]
  constructor
  · rintro ⟨files, hmem, name, hname, hval⟩
    obtain ⟨shard, hshard⟩ := Dict.mem_values.1 hmem
    obtain ⟨data, hdata⟩ := Dict.mem_keys.1 hname
    exact ⟨shard, name, by simp [file?, hshard, hdata], hval⟩
  · rintro ⟨shard, name, hfile, hval⟩
    obtain ⟨data, hdata⟩ := Option.isSome_iff_exists.1 hfile
    obtain ⟨files, hshard, hget⟩ := Option.bind_eq_some_iff.1 hdata
    exact ⟨files, Dict.mem_values.2 ⟨shard, hshard⟩, name, Dict.mem_keys.2 ⟨data, hget⟩, hval⟩

theorem Holds.mem_getInventoryHashes (h : dir.Holds objects) {x : String} :
    x ∈ dir.getInventoryHashes ↔ dir.isFile x = true := by
  rw [ObjectsDir.mem_getInventoryHashes, h.isFile]
  constructor
  · rintro ⟨shard, name, hfile, hval⟩
    rw [h.file] at hfile
    split_ifs at hfile with hshard
    · rw [validateSha256Hex_digest (h.digest name hfile)] at hval
      exact Except.ok.inj hval ▸ hfile
    · cases hfile
  · intro hsome
    exact ⟨shardOf x, x, by rwa [h.file, if_pos rfl], validateSha256Hex_digest (h.digest x hsome)⟩

theorem mem_missingByFile (missing valid : PySet String) (x : String) :
    x ∈ dir.missingByFile missing valid ↔ (x ∈ valid ∧ dir.isFile x = false) ∨ x ∈ missing := by
  have hadd (missing : PySet String) (norm x : String) :
      x ∈ dir.missingFile missing norm ↔ (norm = x ∧ dir.isFile x = false) ∨ x ∈ missing := by
    unfold missingFile
    by_cases heq : norm = x
    · subst heq
      cases dir.isFile norm <;> simp
    · cases dir.isFile norm <;> simp [heq, Ne.symm heq]
  unfold missingByFile
  rw [PySet.mem_foldl hadd]
  simp

/-- **Both paths find the same hashes.** -/
theorem Holds.missingByInventory_iff (h : dir.Holds objects) (missing valid : PySet String)
    (x : String) :
    x ∈ dir.missingByInventory missing valid ↔ x ∈ dir.missingByFile missing valid := by
  rw [mem_missingByFile, missingByInventory, PySet.mem_union, PySet.mem_diff,
    h.mem_getInventoryHashes, Bool.not_eq_true, or_comm]

theorem mem_foldl_sortRequest (requests : List (Option String)) (acc : PySet String × PySet String)
    (x : String) :
    (x ∈ (requests.foldl sortRequest acc).1 ↔
      (∃ r ∈ requests, requestedHash r = none ∧ reportedText r = x) ∨ x ∈ acc.1) ∧
    (x ∈ (requests.foldl sortRequest acc).2 ↔
      (∃ r ∈ requests, requestedHash r = some x) ∨ x ∈ acc.2) := by
  induction requests generalizing acc with
  | nil => simp
  | cons r requests ih =>
    obtain ⟨hmissing, hvalid⟩ := ih (sortRequest acc r)
    rw [List.foldl_cons, hmissing, hvalid, List.exists_mem_cons_iff, List.exists_mem_cons_iff]
    unfold sortRequest
    cases hr : requestedHash r with
    | none => simp [eq_comm, or_assoc, or_left_comm]
    | some norm => simp [eq_comm, or_assoc, or_left_comm]

theorem mem_sortRequests (requests : List (Option String)) (x : String) :
    (x ∈ (sortRequests requests).1 ↔
      ∃ r ∈ requests, requestedHash r = none ∧ reportedText r = x) ∧
    (x ∈ (sortRequests requests).2 ↔ ∃ r ∈ requests, requestedHash r = some x) := by
  obtain ⟨hmissing, hvalid⟩ := mem_foldl_sortRequest requests (∅, ∅) x
  exact ⟨hmissing.trans (or_iff_left (PySet.notMem_empty x)),
    hvalid.trans (or_iff_left (PySet.notMem_empty x))⟩

theorem reportedText_ne {r : Option String} {x : String} (hr : requestedHash r = none)
    (hx : IsDigest x) : reportedText r ≠ x := by
  rintro rfl
  cases r with
  | none => exact absurd hx.1 (by decide)
  | some raw =>
    obtain ⟨hlen, hdigits⟩ := hx
    simp only [reportedText, String.toList_ofList] at hlen hdigits
    have hmatch : matchRepeat isHexDigit 64 64 (lower (strip raw.toList)) = true := by
      rw [matchRepeat_iff _ _ _ (getLast?_lower_strip_ne _)]
      exact ⟨fun c hc => isHexDigit_of_isLowerHexDigit (hdigits c hc), hlen.ge, hlen.le⟩
    rw [requestedHash, validateSha256Hex, if_pos hmatch] at hr
    cases hr

/-- The answer, whichever path is taken. -/
theorem Holds.mem_getMissingHashes (h : dir.Holds objects) (requests : List (Option String))
    (x : String) : x ∈ dir.getMissingHashes requests ↔
      x ∈ dir.missingByFile (sortRequests requests).1 (sortRequests requests).2 := by
  unfold getMissingHashes
  dsimp only
  split_ifs with hempty hmany
  · rw [mem_missingByFile, hempty]
    simp
  · exact h.missingByInventory_iff _ _ x
  · rfl

end ObjectsDir

/-! ## Runs -/

namespace Layout

open LocalCASAdapter (Action)
open ObjectsDir (sortRequests)

variable {sha256 : Bytes → String} {s s' : Layout}

theorem holds_step {a : Action × Bool} (h : s.dir.Holds s.cas.objects)
    (hstep : step sha256 s a = some s') : s'.dir.Holds s'.cas.objects := by
  obtain ⟨cas, hcas, rfl⟩ := Option.map_eq_some_iff.1 hstep
  obtain ⟨-, rfl⟩ := LocalCASAdapter.step_eq_some.1 hcas
  exact h.result a.2

/-- **Missing hashes.** In a store that is reached by its own operations the inventory finds the
same missing hashes as looking up each file, and a valid request is missing exactly if its asset is
not in the store. -/
theorem getMissingHashes_spec {as : List (Action × Bool)}
    (hrun : runFrom (step sha256) {} as = some s) (requests : List (Option String)) :
    (∀ x, x ∈ s.dir.missingByInventory (sortRequests requests).1 (sortRequests requests).2 ↔
      x ∈ s.dir.missingByFile (sortRequests requests).1 (sortRequests requests).2) ∧
    (∀ x, x ∈ s.dir.getMissingHashes requests ↔
      x ∈ s.dir.missingByFile (sortRequests requests).1 (sortRequests requests).2) ∧
    ∀ raw norm, some raw ∈ requests → validateSha256Hex raw = .ok norm →
      (norm ∈ s.dir.getMissingHashes requests ↔ s.dir.hasAsset raw = false) := by
  let Inv := fun s : Layout => s.dir.Holds s.cas.objects
  have hinit : Inv {} := ⟨fun shard name => by simp [ObjectsDir.file?], fun name => by simp⟩
  have hholds : Inv s := runFrom_invariant (fun s a s' h hstep => holds_step h hstep) hinit hrun
  refine ⟨hholds.missingByInventory_iff _ _, hholds.mem_getMissingHashes requests, ?_⟩
  intro raw norm hraw hval
  have hvalid : ∃ r ∈ requests, ObjectsDir.requestedHash r = some norm :=
    ⟨some raw, hraw, by rw [ObjectsDir.requestedHash, hval]; rfl⟩
  have hnot : ¬ ∃ r ∈ requests, ObjectsDir.requestedHash r = none ∧
      ObjectsDir.reportedText r = norm := by
    rintro ⟨r, -, hnone, htext⟩
    exact ObjectsDir.reportedText_ne hnone (validateSha256Hex_isDigest hval) htext
  obtain ⟨hmissing, hsome⟩ := ObjectsDir.mem_sortRequests requests norm
  rw [hholds.mem_getMissingHashes, ObjectsDir.mem_missingByFile, hmissing, hsome,
    and_iff_right hvalid, or_iff_left hnot, ObjectsDir.hasAsset, hval]

/-- A stored asset is found by both paths, under any spelling of its hash. -/
theorem getMissingHashes_stored :
    let stored := String.ofList (List.replicate 64 'a')
    let spelled := String.ofList (List.replicate 64 'A')
    let sha256 := fun _ : Bytes => stored
    let s : Layout :=
      { cas := { objects := Dict.set ∅ stored [1] }
        dir := ⟨Dict.set ∅ "aa" (Dict.set ∅ stored [1])⟩ }
    runFrom (step sha256) {} [(.storeBytes [1] "u" {}, false)] = some s ∧
      stored ∉ s.dir.getMissingHashes [some spelled, none] := by
  intro stored spelled sha256 s
  have hrun : runFrom (step sha256) {} [(.storeBytes [1] "u" {}, false)] = some s := by
    decide +kernel
  refine ⟨hrun, fun hmem => ?_⟩
  have hasset := ((getMissingHashes_spec hrun [some spelled, none]).2.2 spelled stored
    List.mem_cons_self (by decide +kernel)).1 hmem
  exact absurd hasset (by decide +kernel)

end Layout

end Aidars
