import Aidars.Foundations.Collections
import Aidars.Foundations.FileTree
import Aidars.Foundations.Run
import Aidars.Models.Validation

/-!
# The local content-addressed store

`LocalCASAdapter` keeps objects under their hashes. An object gets there through a file in the
staging directory, which is hashed and then renamed. A call of the file system may fail; `Faults`
says which ones do during an operation.

Objects hold what their names say, and stay until they are deleted, whatever fails
(`addressed_result`, `persists`). `cas_failures_clean_iff` says when an operation that fails leaves
the objects as they were and no staging file behind.
-/

namespace Aidars

/-- The directories of the store: objects by their hashes, and staging files by their names. -/
structure LocalCASAdapter where
  objects : Dict String Bytes := ∅
  staging : Dict String Bytes := ∅
  deriving DecidableEq

namespace LocalCASAdapter

/-- What fails during an operation. `write` is a write of a staging file that fails, with what it
leaves there if the file was created; `unlinkStaged` makes the removal of a staging file fail. -/
structure Faults where
  write : Option (Option Bytes) := none
  read : Bool := false
  mkdir : Bool := false
  replace : Bool := false
  unlinkStaged : Bool := false
  unlinkObject : Bool := false
  listShard : Bool := false
  listStaging : Bool := false
  unprunable : String → Bool := fun _ => false

/-- An error that an operation raises. -/
inductive Failure
  | osError
  | fileNotFoundError (message : String)
  | valueError (message : String)
  | runtimeError (message : String)
  deriving DecidableEq

variable (sha256 : Bytes → String)

/-- The asset is in the store. -/
def hasAsset (cas : LocalCASAdapter) (sha256Hex : String) : Bool :=
  match validateSha256Hex sha256Hex with
  | .ok normalized => (cas.objects.get? normalized).isSome
  | .error _ => false

/-- The name of a new staging file. -/
def createStagingFile (sha256Hex : Option String) (stem uuid : String) : String :=
  let tag := match sha256Hex with
    | none => "_obj"
    | some h =>
      if h = "" then "_obj"
      else match validateSha256Hex h with
        | .ok normalized => "_" ++ (normalized.take 16).toString
        | .error _ => "_obj"
  stem ++ tag ++ "_" ++ uuid ++ ".tmp"

/-- Remove a staging file and go on with an answer. -/
def discardStaged {α : Type} (cas : LocalCASAdapter) (staged : String) (f : Faults)
    (answer : Except Failure α) : LocalCASAdapter × Except Failure α :=
  if f.unlinkStaged then (cas, .error .osError)
  else ({ cas with staging := cas.staging.erase staged }, answer)

/-- Insert a staging file into the store if its hash is the one expected. -/
def commitStagedFile (cas : LocalCASAdapter) (staged expectedSha256 : String) (f : Faults) :
    LocalCASAdapter × Except Failure Bool :=
  match cas.staging.get? staged with
  | none => (cas, .ok false)
  | some data =>
    match validateSha256Hex expectedSha256 with
    | .error _ => discardStaged cas staged f (.ok false)
    | .ok normExpected =>
      if f.read then discardStaged cas staged f (.ok false)
      else if sha256 data ≠ normExpected then discardStaged cas staged f (.ok false)
      else if f.mkdir then discardStaged cas staged f (.ok false)
      else if (cas.objects.get? normExpected).isSome then discardStaged cas staged f (.ok true)
      else if f.replace then discardStaged cas staged f (.ok false)
      else ({ objects := cas.objects.set normExpected data
              staging := cas.staging.erase staged }, .ok true)

/-- The answer of a store, by that of its commit. -/
def storedAs (hash message : String) : Except Failure Bool → Except Failure String
  | .ok true => .ok hash
  | .ok false => .error (.runtimeError message)
  | .error e => .error e

/-- Store bytes under their hash. -/
def storeBytes (cas : LocalCASAdapter) (data : Bytes) (uuid : String) (f : Faults) :
    LocalCASAdapter × Except Failure String :=
  let sha256Hex := sha256 data
  let stagingFile := createStagingFile (some sha256Hex) "store" uuid
  match f.write with
  | some none => (cas, .error .osError)
  | some (some part) => ({ cas with staging := cas.staging.set stagingFile part }, .error .osError)
  | none =>
    let (cas, success) := commitStagedFile sha256
      { cas with staging := cas.staging.set stagingFile data } stagingFile sha256Hex f
    (cas, storedAs sha256Hex ("Failed to commit " ++ toString data.length ++
      " bytes to CAS under hash " ++ sha256Hex) success)

/-- The hash that a file is to be stored under. -/
def targetHash (data : Bytes) (expectedSha256 : Option String) : String :=
  match expectedSha256 with
  | none => sha256 data
  | some h => if h = "" then sha256 data else String.ofList (lower h.toList)

/-- Import a file, if it is there and its hash is the one expected. -/
def storeFile (cas : LocalCASAdapter) (src : String) (source : Option Bytes)
    (expectedSha256 : Option String) (uuid : String) (f : Faults) :
    LocalCASAdapter × Except Failure String :=
  match source with
  | none => (cas, .error (.fileNotFoundError ("Source file not found: " ++ src)))
  | some data =>
    let stagingFile := createStagingFile expectedSha256 "import" uuid
    match f.write with
    | some none => (cas, .error .osError)
    | some (some part) =>
      discardStaged { cas with staging := cas.staging.set stagingFile part } stagingFile f
        (.error .osError)
    | none =>
      let cas := { cas with staging := cas.staging.set stagingFile data }
      let target := targetHash sha256 data expectedSha256
      if sha256 data ≠ target then
        discardStaged cas stagingFile f (.error (.valueError
          ("Source file checksum mismatch: expected " ++ expectedSha256.getD "" ++ ", got " ++
            sha256 data)))
      else
        let (cas, success) := commitStagedFile sha256 cas stagingFile target f
        (cas, storedAs target ("Failed to commit file " ++ src ++ " to CAS under hash " ++ target)
          success)

/-- Delete an asset; the answer says whether it was deleted. -/
def deleteAsset (cas : LocalCASAdapter) (sha256Hex : String) (f : Faults) :
    LocalCASAdapter × Bool :=
  match validateSha256Hex sha256Hex with
  | .error _ => (cas, false)
  | .ok normalized =>
    if (cas.objects.get? normalized).isNone || f.unlinkObject then (cas, false)
    else ({ cas with objects := cas.objects.erase normalized }, !f.listShard)

/-- One turn of the pruning loop: an expired file is removed and counted. -/
def pruneOne (expired : String → Bool) (f : Faults) (acc : LocalCASAdapter × ℕ) (name : String) :
    LocalCASAdapter × ℕ :=
  if expired name && !f.unprunable name then
    ({ acc.1 with staging := acc.1.staging.erase name }, acc.2 + 1)
  else acc

/-- Delete the staging files that have expired, with their number. -/
def pruneStaging (cas : LocalCASAdapter) (expired : String → Bool) (f : Faults) :
    LocalCASAdapter × Except Failure ℕ :=
  if f.listStaging then (cas, .error .osError)
  else
    let (cas, count) := cas.staging.keys.foldl (pruneOne expired f) (cas, 0)
    (cas, .ok count)

/-! ## Operations -/

/-- The operations on the store. `stage` is a transfer that leaves a file in the staging
directory. -/
inductive Action
  | stage (name : String) (data : Bytes)
  | storeBytes (data : Bytes) (uuid : String) (f : Faults)
  | storeFile (src : String) (source : Option Bytes) (expectedSha256 : Option String)
      (uuid : String) (f : Faults)
  | commitStagedFile (staged expectedSha256 : String) (f : Faults)
  | deleteAsset (sha256Hex : String) (f : Faults)
  | pruneStaging (expired : String → Bool) (f : Faults)

/-- The store after an operation, and whether it succeeded. -/
def result (cas : LocalCASAdapter) : Action → LocalCASAdapter × Bool
  | .stage name data => ({ cas with staging := cas.staging.set name data }, true)
  | .storeBytes data uuid f =>
    let (cas, answer) := storeBytes sha256 cas data uuid f
    (cas, answer.isOk)
  | .storeFile src source expectedSha256 uuid f =>
    let (cas, answer) := storeFile sha256 cas src source expectedSha256 uuid f
    (cas, answer.isOk)
  | .commitStagedFile staged expectedSha256 f =>
    let (cas, answer) := commitStagedFile sha256 cas staged expectedSha256 f
    (cas, answer.toOption.getD false)
  | .deleteAsset sha256Hex f => cas.deleteAsset sha256Hex f
  | .pruneStaging expired f =>
    let (cas, answer) := cas.pruneStaging expired f
    (cas, answer.isOk)

/-- The staging file of an operation. -/
def ownStaging : Action → Option String
  | .storeBytes data uuid _ => some (createStagingFile (some (sha256 data)) "store" uuid)
  | .storeFile _ _ expectedSha256 uuid _ => some (createStagingFile expectedSha256 "import" uuid)
  | .commitStagedFile staged .. => some staged
  | .stage .. | .deleteAsset .. | .pruneStaging .. => none

/-- The identifier in the name of a new staging file is not in use. -/
def Fresh (cas : LocalCASAdapter) : Action → Prop
  | .storeBytes data uuid _ =>
    cas.staging.get? (createStagingFile (some (sha256 data)) "store" uuid) = none
  | .storeFile _ _ expectedSha256 uuid _ =>
    cas.staging.get? (createStagingFile expectedSha256 "import" uuid) = none
  | .stage .. | .commitStagedFile .. | .deleteAsset .. | .pruneStaging .. => True

instance (cas : LocalCASAdapter) : (a : Action) → Decidable (Fresh sha256 cas a)
  | .storeBytes .. | .storeFile .. => inferInstanceAs (Decidable (_ = none))
  | .stage .. | .commitStagedFile .. | .deleteAsset .. | .pruneStaging .. => .isTrue trivial

/-- An operation with new names for its staging file. -/
def step (cas : LocalCASAdapter) (a : Action) : Option LocalCASAdapter :=
  if Fresh sha256 cas a then some (result sha256 cas a).1 else none

/-! ## What operations keep -/

/-- Every object holds bytes with the hash that it is stored under. -/
def Addressed (cas : LocalCASAdapter) : Prop :=
  ∀ h data, cas.objects.get? h = some data → sha256 data = h

/-- An operation that fails leaves the objects as they were, and no staging file of its own. -/
def FailsClean (cas : LocalCASAdapter) (a : Action) : Prop :=
  (result sha256 cas a).2 = false → (result sha256 cas a).1.objects = cas.objects ∧
    ∀ name, ownStaging sha256 a = some name → (result sha256 cas a).1.staging.get? name = none

/-- The bytes that an operation is to store. -/
def storedData (cas : LocalCASAdapter) : Action → Option Bytes
  | .storeBytes data _ _ => some data
  | .storeFile _ source _ _ _ => source
  | .commitStagedFile staged _ _ => cas.staging.get? staged
  | .stage .. | .deleteAsset .. | .pruneStaging .. => none

/-- The operation deletes the asset. -/
def Deletes (h : String) (a : Action) : Prop :=
  ∃ h' f, a = .deleteAsset h' f ∧ validateSha256Hex h' = validateSha256Hex h

/-- After bytes were stored successfully their asset is there until it is deleted. -/
def Persists (as : List Action) : Prop :=
  ∀ pre a post rest cas cas₁ cas' data, as = pre ++ a :: (post ++ rest) →
    runFrom (step sha256) {} pre = some cas → step sha256 cas a = some cas₁ →
    storedData cas a = some data → (result sha256 cas a).2 = true →
    (∀ b ∈ post, ¬ Deletes (sha256 data) b) → runFrom (step sha256) cas₁ post = some cas' →
    cas'.hasAsset (sha256 data) = true

/-- A commit removes no staging file, or can remove it. -/
def CommitClean (cas : LocalCASAdapter) (data : Bytes) (expectedSha256 : String) (f : Faults) :
    Prop :=
  f.unlinkStaged = false ∨ (validateSha256Hex expectedSha256 = .ok (sha256 data) ∧
    f.read = false ∧ f.mkdir = false ∧ f.replace = false ∧ cas.objects.get? (sha256 data) = none)

/-- No write of `store_bytes` fails once its staging file is there, no staging file that has to be
removed stays, and the directory of a deleted asset can be listed. -/
def Clean (cas : LocalCASAdapter) : Action → Prop
  | .stage .. | .pruneStaging .. => True
  | .storeBytes data _ f => (∀ part, f.write ≠ some (some part)) ∧
      (f.write = none → CommitClean sha256 cas data (sha256 data) f)
  | .storeFile _ source expectedSha256 _ f => ∀ data, source = some data →
      (∀ part, f.write = some (some part) → f.unlinkStaged = false) ∧
      (f.write = none → if sha256 data = targetHash sha256 data expectedSha256 then
        CommitClean sha256 cas data (sha256 data) f else f.unlinkStaged = false)
  | .commitStagedFile staged expectedSha256 f => ∀ data, cas.staging.get? staged = some data →
      CommitClean sha256 cas data expectedSha256 f
  | .deleteAsset sha256Hex f => cas.hasAsset sha256Hex = true → f.unlinkObject = false →
      f.listShard = false

variable {sha256} {cas cas' : LocalCASAdapter} {staged name h : String} {data : Bytes} {f : Faults}
  {a : Action}

/-! ### Commits -/

theorem discardStaged_ok {α : Type} {answer : Except Failure α} (hf : f.unlinkStaged = false) :
    discardStaged cas staged f answer =
      ({ cas with staging := cas.staging.erase staged }, answer) := by
  rw [discardStaged, hf]
  rfl

theorem discardStaged_error {α : Type} {answer : Except Failure α} (hf : f.unlinkStaged = true) :
    discardStaged cas staged f answer = (cas, .error .osError) := by
  rw [discardStaged, if_pos hf]

/-- What a commit of a staging file can do. -/
inductive Committed (sha256 : Bytes → String) (cas : LocalCASAdapter) (staged : String)
    (data : Bytes) (expected : String) : LocalCASAdapter × Except Failure Bool → Prop
  | stored (h : validateSha256Hex expected = .ok (sha256 data)) :
      Committed sha256 cas staged data expected
        ({ objects := cas.objects.set (sha256 data) data
           staging := cas.staging.erase staged }, .ok true)
  | present (h : validateSha256Hex expected = .ok (sha256 data))
      (hobject : (cas.objects.get? (sha256 data)).isSome = true) :
      Committed sha256 cas staged data expected
        ({ cas with staging := cas.staging.erase staged }, .ok true)
  | refused : Committed sha256 cas staged data expected
      ({ cas with staging := cas.staging.erase staged }, .ok false)

variable (sha256) in
/-- A commit either does one of these things, or cannot remove the staging file. -/
theorem commitStagedFile_spec (hstaged : cas.staging.get? staged = some data) (expected : String)
    (f : Faults) :
    (CommitClean sha256 cas data expected f ∧ Committed sha256 cas staged data expected
      (commitStagedFile sha256 cas staged expected f)) ∨
    (¬ CommitClean sha256 cas data expected f ∧
      commitStagedFile sha256 cas staged expected f = (cas, .error .osError)) := by
  unfold commitStagedFile CommitClean
  rw [hstaged]
  dsimp only
  cases hf : f.unlinkStaged with
  | false =>
    refine .inl ⟨.inl rfl, ?_⟩
    split
    · rw [discardStaged_ok hf]
      exact .refused
    · rename_i norm hnorm
      split_ifs with hread hhash hmkdir hobject hreplace <;> try rw [discardStaged_ok hf]
      · exact .refused
      · exact .refused
      · exact .refused
      · rw [not_not] at hhash
        exact .present (hhash ▸ hnorm) (hhash ▸ hobject)
      · exact .refused
      · rw [not_not] at hhash
        subst hhash
        exact .stored hnorm
  | true =>
    simp only [Bool.true_eq_false, false_or]
    split
    · rename_i e he
      refine .inr ⟨fun h => ?_, discardStaged_error hf⟩
      rw [he] at h
      cases h.1
    · rename_i norm hnorm
      split_ifs with hread hhash hmkdir hobject hreplace <;> try rw [discardStaged_error hf]
      · exact .inr ⟨fun h => absurd hread (by simp [h.2.1]), rfl⟩
      · exact .inr ⟨fun h => hhash (Except.ok.inj (h.1.symm.trans hnorm)), rfl⟩
      · exact .inr ⟨fun h => absurd hmkdir (by simp [h.2.2.1]), rfl⟩
      · refine .inr ⟨fun h => ?_, rfl⟩
        rw [← Except.ok.inj (h.1.symm.trans hnorm), h.2.2.2.2] at hobject
        cases hobject
      · exact .inr ⟨fun h => absurd hreplace (by simp [h.2.2.2.1]), rfl⟩
      · rw [not_not] at hhash
        subst hhash
        exact .inl ⟨⟨hnorm, by simpa using hread, by simpa using hmkdir, by simpa using hreplace,
          by simpa using hobject⟩, .stored hnorm⟩

theorem hasAsset_of_object (hval : validateSha256Hex name = .ok h)
    (hobject : (cas.objects.get? h).isSome = true) : cas.hasAsset h = true := by
  rw [hasAsset, validateSha256Hex_idem hval]
  exact hobject

/-! ### Endings -/

/-- How an operation with a staging file ends. It leaves the file behind if it is not clean, and
then it fails. -/
inductive Ends (sha256 : Bytes → String) (objects : Dict String Bytes) (data : Option Bytes)
    (name : String) (clean : Prop) : LocalCASAdapter × Bool → Prop
  | stored {cas : LocalCASAdapter} {d : Bytes} (hclean : clean)
      (hgone : cas.staging.get? name = none) (hdata : data = some d)
      (hasset : cas.hasAsset (sha256 d) = true)
      (hobjects : cas.objects = objects ∨ cas.objects = objects.set (sha256 d) d) :
      Ends sha256 objects data name clean (cas, true)
  | failed {cas : LocalCASAdapter} (hclean : clean) (hgone : cas.staging.get? name = none)
      (hobjects : cas.objects = objects) : Ends sha256 objects data name clean (cas, false)
  | stuck {cas : LocalCASAdapter} (hclean : ¬ clean) (hleft : cas.staging.get? name ≠ none)
      (hobjects : cas.objects = objects) : Ends sha256 objects data name clean (cas, false)

theorem Ends.congr {objects : Dict String Bytes} {d : Option Bytes} {clean clean' : Prop}
    {r : LocalCASAdapter × Bool} (h : Ends sha256 objects d name clean r) (hc : clean ↔ clean') :
    Ends sha256 objects d name clean' r :=
  propext hc ▸ h

theorem Committed.ends {expected : String} {clean : Prop}
    {r : LocalCASAdapter × Except Failure Bool} (h : Committed sha256 cas staged data expected r)
    (hclean : clean) :
    Ends sha256 cas.objects (some data) staged clean (r.1, r.2.toOption.getD false) := by
  have hgone : (cas.staging.erase staged).get? staged = none := by simp
  cases h with
  | stored h =>
    refine .stored hclean hgone rfl (hasAsset_of_object h ?_) (.inr rfl)
    rw [Dict.get?_set, if_pos rfl]
    rfl
  | present h hobject => exact .stored hclean hgone rfl (hasAsset_of_object h hobject) (.inl rfl)
  | refused => exact .failed hclean hgone rfl

variable (sha256) in
/-- How a commit of a staging file ends. -/
theorem commitStagedFile_ends (hstaged : cas.staging.get? staged = some data) (expected : String)
    (f : Faults) :
    Ends sha256 cas.objects (some data) staged (CommitClean sha256 cas data expected f)
      ((commitStagedFile sha256 cas staged expected f).1,
        (commitStagedFile sha256 cas staged expected f).2.toOption.getD false) := by
  obtain ⟨hclean, hcommitted⟩ | ⟨hclean, herror⟩ :=
    commitStagedFile_spec sha256 hstaged expected f
  · exact hcommitted.ends hclean
  · rw [herror]
    refine .stuck hclean ?_ rfl
    rw [hstaged]
    nofun

theorem isOk_storedAs (hash message : String) (answer : Except Failure Bool) :
    (storedAs hash message answer).isOk = answer.toOption.getD false := by
  rcases answer with e | _ | _ <;> rfl

variable (sha256 cas f) in
/-- How an operation ends that fails and removes the staging file it wrote. -/
theorem discardStaged_ends {α : Type} (staged : String) (part : Bytes) (d : Option Bytes)
    (e : Failure) :
    Ends sha256 cas.objects d staged (f.unlinkStaged = false)
      ((discardStaged { cas with staging := cas.staging.set staged part } staged f
          (Except.error (α := α) e)).1,
        (discardStaged { cas with staging := cas.staging.set staged part } staged f
          (Except.error (α := α) e)).2.isOk) := by
  by_cases hf : f.unlinkStaged = false
  · rw [discardStaged_ok hf]
    exact .failed hf (by simp) rfl
  · rw [discardStaged_error (by simpa using hf)]
    exact .stuck hf (by simp) rfl

variable (sha256 cas f) in
theorem store_ends (staged target message : String) (data : Bytes) :
    Ends sha256 cas.objects (some data) staged (CommitClean sha256 cas data target f)
      ((commitStagedFile sha256 { cas with staging := cas.staging.set staged data } staged target
          f).1,
        (storedAs target message (commitStagedFile sha256
          { cas with staging := cas.staging.set staged data } staged target f).2).isOk) := by
  rw [isOk_storedAs]
  have hget : (cas.staging.set staged data).get? staged = some data := by
    rw [Dict.get?_set, if_pos rfl]
  have hends (cas' : LocalCASAdapter) (hget : cas'.staging.get? staged = some data) :=
    commitStagedFile_ends sha256 hget target f
  exact hends { cas with staging := cas.staging.set staged data } hget

theorem storeBytes_ends (uuid : String) (hfresh : Fresh sha256 cas (.storeBytes data uuid f)) :
    Ends sha256 cas.objects (some data) (createStagingFile (some (sha256 data)) "store" uuid)
      (Clean sha256 cas (.storeBytes data uuid f))
      (result sha256 cas (.storeBytes data uuid f)) := by
  simp only [Clean, result, storeBytes]
  cases hwrite : f.write with
  | none => exact (store_ends sha256 cas f _ _ _ data).congr (by simp)
  | some left =>
    cases left with
    | none => exact .failed (by simp) hfresh rfl
    | some part => exact .stuck (by simp) (by simp) rfl

theorem storeFile_ends {src uuid : String} {source : Option Bytes} {expectedSha256 : Option String}
    (hfresh : Fresh sha256 cas (.storeFile src source expectedSha256 uuid f)) :
    Ends sha256 cas.objects source (createStagingFile expectedSha256 "import" uuid)
      (Clean sha256 cas (.storeFile src source expectedSha256 uuid f))
      (result sha256 cas (.storeFile src source expectedSha256 uuid f)) := by
  simp only [Clean, result, storeFile]
  cases source with
  | none => exact .failed nofun hfresh rfl
  | some data =>
    simp only [Option.some.injEq, forall_eq']
    cases hwrite : f.write with
    | none =>
      by_cases htarget : sha256 data = targetHash sha256 data expectedSha256
      · simp only [ne_eq, htarget, not_true_eq_false, if_false, if_true]
        rw [← htarget]
        exact (store_ends sha256 cas f _ _ _ data).congr (by simp)
      · simp only [ne_eq, htarget, not_false_eq_true, if_false, if_true]
        exact (discardStaged_ends sha256 cas f _ data _ _).congr (by simp)
    | some left =>
      cases left with
      | none => exact .failed (by simp) hfresh rfl
      | some part => exact (discardStaged_ends sha256 cas f _ part _ _).congr (by simp)

theorem result_ends (hfresh : Fresh sha256 cas a) (hname : ownStaging sha256 a = some name) :
    Ends sha256 cas.objects (storedData cas a) name (Clean sha256 cas a) (result sha256 cas a) := by
  cases a with
  | storeBytes data uuid f =>
    obtain rfl := Option.some.inj hname
    exact storeBytes_ends uuid hfresh
  | storeFile src source expectedSha256 uuid f =>
    obtain rfl := Option.some.inj hname
    exact storeFile_ends hfresh
  | commitStagedFile staged expectedSha256 f =>
    obtain rfl := Option.some.inj hname
    simp only [Clean, result, storedData]
    cases hstaged : cas.staging.get? staged with
    | none =>
      rw [commitStagedFile, hstaged]
      exact .failed (fun _ h => by cases h) hstaged rfl
    | some data => exact (commitStagedFile_ends sha256 hstaged _ f).congr (by simp)
  | stage | deleteAsset | pruneStaging => cases hname

theorem objects_foldl_pruneOne (expired : String → Bool) (f : Faults) (names : List String)
    (acc : LocalCASAdapter × ℕ) :
    (names.foldl (pruneOne expired f) acc).1.objects = acc.1.objects := by
  induction names generalizing acc with
  | nil => rfl
  | cons name names ih =>
    rw [List.foldl_cons, ih]
    unfold pruneOne
    split_ifs <;> rfl

theorem objects_pruneStaging (expired : String → Bool) (f : Faults) :
    (cas.pruneStaging expired f).1.objects = cas.objects := by
  rw [pruneStaging]
  split_ifs
  · rfl
  · exact objects_foldl_pruneOne expired f _ _

theorem deleteAsset_spec (cas : LocalCASAdapter) (sha256Hex : String) (f : Faults) :
    (cas.deleteAsset sha256Hex f = (cas, false) ∧
      (cas.hasAsset sha256Hex = true → f.unlinkObject = true)) ∨
    ∃ h, validateSha256Hex sha256Hex = .ok h ∧ (cas.objects.get? h).isSome = true ∧
      f.unlinkObject = false ∧ cas.deleteAsset sha256Hex f =
        ({ cas with objects := cas.objects.erase h }, !f.listShard) := by
  unfold deleteAsset hasAsset
  cases hval : validateSha256Hex sha256Hex with
  | error e => exact .inl ⟨rfl, nofun⟩
  | ok h =>
    dsimp only
    split_ifs with hcond
    · refine .inl ⟨rfl, fun hsome => ?_⟩
      simpa [Option.isNone_iff_eq_none, Option.isSome_iff_ne_none.1 hsome] using hcond
    · rw [Bool.or_eq_true, not_or, Bool.not_eq_true, Bool.not_eq_true,
        Option.isNone_eq_false_iff] at hcond
      exact .inr ⟨h, rfl, hcond.1, hcond.2, rfl⟩

/-! ### Objects -/

theorem Ends.objects {objects : Dict String Bytes} {d : Option Bytes} {clean : Prop}
    {r : LocalCASAdapter × Bool} (h : Ends sha256 objects d name clean r) :
    r.1.objects = objects ∨ ∃ bytes, r.1.objects = objects.set (sha256 bytes) bytes := by
  cases h with
  | stored _ _ _ _ hobjects => exact hobjects.imp_right fun h => ⟨_, h⟩
  | failed _ _ hobjects | stuck _ _ hobjects => exact .inl hobjects

/-- What an operation does to the objects: nothing, or it adds bytes under their hash, or it deletes
an asset. -/
theorem objects_result (hfresh : Fresh sha256 cas a) :
    (result sha256 cas a).1.objects = cas.objects ∨
    (∃ bytes, (result sha256 cas a).1.objects = cas.objects.set (sha256 bytes) bytes) ∨
    (∃ h h' f, a = .deleteAsset h' f ∧ validateSha256Hex h' = .ok h ∧
      (result sha256 cas a).1.objects = cas.objects.erase h) := by
  cases a with
  | storeBytes | storeFile | commitStagedFile =>
    exact (result_ends hfresh rfl).objects.imp_right .inl
  | stage => exact .inl rfl
  | pruneStaging expired f => exact .inl (objects_pruneStaging expired f)
  | deleteAsset h' f =>
    obtain ⟨hnone, -⟩ | ⟨h, hval, -, -, hdel⟩ := deleteAsset_spec cas h' f
    · exact .inl (congrArg (·.1.objects) hnone)
    · exact .inr (.inr ⟨h, h', f, rfl, hval, congrArg (·.1.objects) hdel⟩)

/-- Objects hold what their names say, whatever an operation does. -/
theorem addressed_result (hcas : Addressed sha256 cas) (hfresh : Fresh sha256 cas a) :
    Addressed sha256 (result sha256 cas a).1 := by
  intro h data hget
  obtain hobjects | ⟨bytes, hobjects⟩ | ⟨h', -, -, -, -, hobjects⟩ := objects_result hfresh
  · exact hcas h data (hobjects ▸ hget)
  · rw [hobjects, Dict.get?_set] at hget
    split_ifs at hget with heq
    · rw [← Option.some.inj hget, heq]
    · exact hcas h data hget
  · rw [hobjects, Dict.get?_erase] at hget
    split_ifs at hget
    exact hcas h data hget

theorem hasAsset_result (hfresh : Fresh sha256 cas a) (hasset : cas.hasAsset h = true)
    (hdel : ¬ Deletes h a) : (result sha256 cas a).1.hasAsset h = true := by
  unfold hasAsset at hasset ⊢
  cases hval : validateSha256Hex h with
  | error e => rw [hval] at hasset; cases hasset
  | ok norm =>
    rw [hval] at hasset
    dsimp only at hasset ⊢
    obtain hobjects | ⟨bytes, hobjects⟩ | ⟨norm', h', f, rfl, hval', hobjects⟩ :=
      objects_result hfresh
    · rwa [hobjects]
    · rw [hobjects, Dict.get?_set]
      split_ifs
      · rfl
      · exact hasset
    · have hne : norm' ≠ norm := by
        rintro rfl
        exact hdel ⟨h', f, rfl, hval'.trans hval.symm⟩
      rwa [hobjects, Dict.get?_erase, if_neg hne.symm]

/-! ### Failures -/

theorem Ends.failsClean_iff {objects : Dict String Bytes} {d : Option Bytes} {clean : Prop}
    {r : LocalCASAdapter × Bool} (h : Ends sha256 objects d name clean r) :
    (r.2 = false → r.1.objects = objects ∧ r.1.staging.get? name = none) ↔ clean := by
  cases h with
  | stored hclean => exact ⟨fun _ => hclean, fun _ h => by cases h⟩
  | failed hclean hgone hobjects => exact ⟨fun _ => hclean, fun _ _ => ⟨hobjects, hgone⟩⟩
  | stuck hclean hleft => exact ⟨fun h => absurd (h rfl).2 hleft, fun h => absurd h hclean⟩

theorem failsClean_iff (hfresh : Fresh sha256 cas a) : FailsClean sha256 cas a ↔
    Clean sha256 cas a := by
  unfold FailsClean
  cases a with
  | storeBytes | storeFile | commitStagedFile =>
    rw [← (result_ends hfresh rfl).failsClean_iff]
    simp [ownStaging]
  | stage => exact ⟨fun _ => trivial, fun _ h => by cases h⟩
  | pruneStaging expired f =>
    exact ⟨fun _ => trivial, fun _ _ => ⟨objects_pruneStaging expired f, fun _ h => by cases h⟩⟩
  | deleteAsset h' f =>
    simp only [Clean, result, ownStaging]
    obtain ⟨hnone, hunlink⟩ | ⟨h, hval, hsome, hunlink, hdel⟩ := deleteAsset_spec cas h' f
    · rw [hnone]
      refine ⟨fun _ hasset hf => ?_, fun _ _ => ⟨rfl, fun _ h => by cases h⟩⟩
      rw [hunlink hasset] at hf
      cases hf
    · have hasset : cas.hasAsset h' = true := by rwa [hasAsset, hval]
      rw [hdel]
      cases hshard : f.listShard with
      | false => exact ⟨fun _ _ _ => rfl, fun _ h => by cases h⟩
      | true =>
        constructor
        · intro hfails
          have hsame := congrArg (·.get? h) (hfails rfl).1
          simp only [Dict.get?_erase, if_true] at hsame
          rw [← hsame] at hsome
          cases hsome
        · exact fun hclean => absurd (hclean hasset hunlink) (by decide)

/-! ### Runs -/

theorem step_eq_some : step sha256 cas a = some cas' ↔
    Fresh sha256 cas a ∧ (result sha256 cas a).1 = cas' := by
  simp [step, Option.ite_none_right_eq_some]

theorem hasAsset_of_stored (hfresh : Fresh sha256 cas a) (hdata : storedData cas a = some data)
    (hok : (result sha256 cas a).2 = true) :
    (result sha256 cas a).1.hasAsset (sha256 data) = true := by
  have key (name : String) (hname : ownStaging sha256 a = some name) :
      (result sha256 cas a).1.hasAsset (sha256 data) = true := by
    have hends := result_ends hfresh hname
    generalize result sha256 cas a = r at hends hok
    cases hends with
    | stored _ _ hd hasset => rwa [← Option.some.inj (hd.symm.trans hdata)]
    | failed | stuck => cases hok
  cases a with
  | storeBytes | storeFile | commitStagedFile => exact key _ rfl
  | stage | deleteAsset | pruneStaging => cases hdata

theorem hasAsset_run {as : List Action} (hasset : cas.hasAsset h = true)
    (hdel : ∀ b ∈ as, ¬ Deletes h b) (hrun : runFrom (step sha256) cas as = some cas') :
    cas'.hasAsset h = true := by
  induction as generalizing cas with
  | nil => exact Option.some.inj hrun ▸ hasset
  | cons a as ih =>
    obtain ⟨cas₁, hstep, hrest⟩ := runFrom_cons.1 hrun
    obtain ⟨hfresh, rfl⟩ := step_eq_some.1 hstep
    have hkept := hasAsset_result hfresh hasset (hdel a List.mem_cons_self)
    exact ih hkept (fun b hb => hdel b (List.mem_cons_of_mem a hb)) hrest

/-- **An asset that was stored is there until it is deleted.** -/
theorem persists (as : List Action) : Persists sha256 as := by
  intro pre a post rest cas cas₁ cas' data _ _ hstep hdata hok hpost hrun
  obtain ⟨hfresh, rfl⟩ := step_eq_some.1 hstep
  exact hasAsset_run (hasAsset_of_stored hfresh hdata hok) hpost hrun

theorem addressed_step (hcas : Addressed sha256 cas) (hstep : step sha256 cas a = some cas') :
    Addressed sha256 cas' := by
  obtain ⟨hfresh, rfl⟩ := step_eq_some.1 hstep
  exact addressed_result hcas hfresh

variable (sha256) in
/-- **When the store is content addressed whatever fails.** In a run each object holds what its name
says, each operation that fails changes no object and leaves no staging file, and stored assets stay
until they are deleted, exactly if every operation of the run is clean. -/
theorem cas_failures_clean_iff (as : List Action) :
    (Along (step sha256) (fun cas a => FailsClean sha256 cas a ∧
      Addressed sha256 (result sha256 cas a).1) {} as ∧ Persists sha256 as) ↔
    Along (step sha256) (Clean sha256) {} as := by
  rw [and_iff_left (persists as)]
  have hinit : Addressed sha256 {} := nofun
  refine along_iff (fun cas a cas' hcas hstep => ?_)
    (fun cas a cas' hcas _ hstep => addressed_step hcas hstep) hinit
  have hfresh := (step_eq_some.1 hstep).1
  rw [and_iff_left (addressed_result hcas hfresh), failsClean_iff hfresh]

/-- A failing write of `store_bytes` leaves its staging file behind. -/
theorem failed_write_left :
    let sha256 := fun _ : Bytes => String.ofList (List.replicate 64 'a')
    ¬ Along (step sha256) (fun cas a => FailsClean sha256 cas a ∧
      Addressed sha256 (result sha256 cas a).1) {}
      [.storeBytes [1, 2] "u" { write := some (some [1]) }] := by
  rintro sha256 ⟨⟨hfails, -⟩, -⟩
  exact absurd ((hfails rfl).2 _ rfl) (by decide +kernel)

end LocalCASAdapter

end Aidars
