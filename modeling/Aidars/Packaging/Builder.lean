import Aidars.Packaging.Planner

/-!
# Building and publishing packages

`buildPackage` copies the files of a plan to a directory, with the scene and a manifest.
`buildAndValidate` does so in a temporary directory and, if the validator verifies the result, moves
it to the output directory; what was there is moved aside first and removed in the end. One call of
the file system may fail.
-/

namespace Aidars.Packaging

/-! ## Calls that fail -/

/-- The calls of the file system. -/
inductive Call
  | mkdtemp
  | mkdirPackage
  | mkdirAsset (i : ℕ)
  | copyAsset (i : ℕ)
  | mkdirScene
  | copyScene
  | writeMapping
  | runBlender
  | writeManifest
  | validate
  | removeLeftover
  | renameToBackup
  | renameToFinal
  | rollback
  | removeBackup
  | removeTemporary
  deriving DecidableEq

/-- A call that fails, with what a write leaves of its file, and the entries that a removal keeps.
-/
structure Fault where
  call : Call
  left : Option Bytes := none
  kept : Path → Bool := fun _ => true

/-- The fault, if it is one of a call. -/
def faultAt (fault : Option Fault) (call : Call) : Option Fault :=
  fault.filter fun f => f.call = call

/-! ## Scripts -/

/-- Make a directory with its parents. -/
def mkdir (failed : Option Fault) (p : Path) : Script PathName Bytes := fun t =>
  if failed.isSome || p.inits.any fun q => t.isFile q then (t, false) else (t.mkdirs p, true)

/-- Write a file, or what a fault leaves of it. -/
def writeFile (failed : Option Fault) (p : Path) (data : Bytes) : Script PathName Bytes := fun t =>
  if !t.isDir p.dropLast || t.isDir p then (t, false)
  else match failed with
    | none => (t.put p (.file data), true)
    | some f =>
      match f.left with
      | none => (t, false)
      | some left => (t.put p (.file left), false)

/-- Where a copy of a file goes: into a directory, or to the path itself. -/
def copyTarget (t : FileTree PathName Bytes) (source target : Path) : Path :=
  if t.isDir target then target ++ source.getLast?.toList else target

/-- Copy a file. -/
def copyFile (failed : Option Fault) (source target : Path) : Script PathName Bytes := fun t =>
  match t.data? source with
  | none => (t, false)
  | some data =>
    if copyTarget t source target = source then (t, false)
    else writeFile failed (copyTarget t source target) data t

/-- Remove a directory with what is in it. -/
def rmtree (failed : Option Fault) (p : Path) : Script PathName Bytes := fun t =>
  if !t.isDir p then (t, false)
  else (t.remove p (failed.elim (fun _ => false) Fault.kept), failed.isNone)

/-- Move a file or directory to a path where there is nothing. -/
def renameTo (failed : Option Fault) (p q : Path) : Script PathName Bytes := fun t =>
  if failed.isSome || !t.isDir q.dropLast || t.exists? q then (t, false) else (t.rename p q, true)

/-! ## The mapping of paths -/

/-- The name of an asset in its identifier: what follows the first colon. -/
def assetName (assetId : String) : String :=
  match assetId.toList.dropWhile (· ≠ ':') with
  | [] => assetId
  | _ :: name => String.ofList name

/-- The source and package paths of a record that the builder copies. -/
def copied (record : AssetRecord) : Option (String × String) :=
  match record.status, record.sourcePath, record.packagePath with
  | .resolved, some source, some package =>
    if source = "" ∨ package = "" then none else some (source, package)
  | _, _, _ => none

/-- The path that a packaged scene refers to a packaged file with. -/
def newPath (package : String) : String := "//../" ++ package

/-- The entries that a record adds to the mapping. -/
def mappingEntries (cwd : Path) (record : AssetRecord) : List (String × String) :=
  match copied record with
  | none => []
  | some (source, package) =>
    (pathStr (resolvePath cwd source), newPath package) ::
      (match record.relativePath with
        | none => []
        | some rel => [(normalizeSlashes rel, newPath package), (rel, newPath package)]) ++
      [(assetName record.assetId, newPath package)]

/-- The mapping handed to the script that remaps paths. -/
def pathMapping (cwd : Path) (plan : PackagePlan) : Dict String String :=
  (plan.deduplicatedAssets.flatMap (mappingEntries cwd)).foldl (fun m e => m.set e.1 e.2) ∅

/-! ## Building -/

/-- What a build takes from outside: the working directory, the directory of temporary files and a
fresh name, the number of the process, the texts of the manifest and of the mapping, and Blender
with the script that remaps paths, which may save the scene and may fail. -/
structure Environment where
  cwd : Path := []
  tempRoot : Path := []
  tempName : PathName
  processId : ℕ := 0
  manifestText : PackagePlan → Bytes
  mappingText : Dict String String → Bytes
  blender : Bytes → Dict String String → Option Bytes × Bool

/-- The directory of assets in a package. -/
def assetsDir : PathName := ⟨"assets", by decide, by decide, by decide, by decide⟩

/-- The directory of the scene in a package. -/
def sceneDir : PathName := ⟨"scene", by decide, by decide, by decide, by decide⟩

/-- The file of the manifest. -/
def manifestFile : PathName := ⟨"manifest.json", by decide, by decide, by decide, by decide⟩

/-- The file of the mapping. -/
def mappingFile : PathName := ⟨"path_mapping.json", by decide, by decide, by decide, by decide⟩

variable (env : Environment) (fault : Option Fault)

/-- Copy the file of a record, if it is there. -/
def copyAsset (dest : Path) (recordAt : AssetRecord × ℕ) : Script PathName Bytes :=
  match copied recordAt.1 with
  | none => .pass
  | some (source, package) =>
    (mkdir (faultAt fault (.mkdirAsset recordAt.2)) (resolveParent dest package)).andThen fun t =>
      if t.isFile (resolvePath env.cwd source) then
        copyFile (faultAt fault (.copyAsset recordAt.2)) (resolvePath env.cwd source)
          (resolvePath dest package) t
      else (t, true)

/-- Copy the files of the records, in order. -/
def copyAssets (plan : PackagePlan) (dest : Path) : Script PathName Bytes :=
  .forEach (copyAsset env fault dest) plan.deduplicatedAssets.zipIdx

/-- The suffix of a name is `.blend`. -/
def hasBlendSuffix (name : String) : Bool :=
  ".blend".toList <:+ lower name.toList && 6 < name.toList.length

/-- The path of the scene in a package. -/
def scenePath (plan : PackagePlan) : String := plan.sceneName ++ ".blend"

/-- Run Blender on the packaged scene. -/
def runBlender (scene : Path) (mapping : Dict String String) : Script PathName Bytes := fun t =>
  match faultAt fault .runBlender, t.data? scene with
  | some _, _ | none, none => (t, false)
  | none, some data =>
    let (saved, ok) := env.blender data mapping
    (saved.elim t fun data => t.put scene (.file data), ok)

/-- Copy the scene, if it is a Blender file, and remap its paths if there is a Blender. -/
def copyScene (plan : PackagePlan) (dest : Path) (sceneSource : String) (useBlender : Bool) :
    Script PathName Bytes := fun t =>
  if sceneSource ≠ "" && t.exists? (resolvePath env.cwd sceneSource) &&
      hasBlendSuffix (pathName sceneSource) then
    let scene := resolvePath (dest ++ [sceneDir]) (scenePath plan)
    let remap := if useBlender then
        (writeFile (faultAt fault .writeMapping) (dest ++ [mappingFile])
          (env.mappingText (pathMapping env.cwd plan))).andThen
          (runBlender env fault scene (pathMapping env.cwd plan))
      else .pass
    ((mkdir (faultAt fault .mkdirScene)
        (resolveParent (dest ++ [sceneDir]) (scenePath plan))).andThen <|
      (copyFile (faultAt fault .copyScene) (resolvePath env.cwd sceneSource) scene).andThen
        remap) t
  else (t, true)

/-- Build a package in a directory. -/
def buildPackage (plan : PackagePlan) (dest : Path) (sceneSource : String) (useBlender : Bool) :
    Script PathName Bytes :=
  (mkdir (faultAt fault .mkdirPackage) dest).andThen <|
    (copyAssets env fault plan dest).andThen <|
    (copyScene env fault plan dest sceneSource useBlender).andThen
      (writeFile (faultAt fault .writeManifest) (dest ++ [manifestFile]) (env.manifestText plan))

/-! ## Validation -/

/-- What the validator reports. -/
structure PackageIntegrityReport where
  verified : Bool := false
  assetCount : ℕ := 0
  verifiedCount : ℕ := 0
  failedAssets : List String := []
  missingAssets : List String := []
  deriving DecidableEq

/-- How the check of a packaged scene in Blender ends. -/
inductive SceneCheck
  | passed
  | failed
  | unavailable (message : String)
  deriving DecidableEq

/-- One turn of the loop over the records to check. -/
def validateOne (sha256 : Bytes → String) (t : FileTree PathName Bytes) (packageDir : Path)
    (report : PackageIntegrityReport) (record : AssetRecord) : PackageIntegrityReport :=
  let file := resolvePath packageDir (record.packagePath.getD "")
  match t.data? file with
  | none => { report with missingAssets := report.missingAssets ++ [record.assetId] }
  | some data =>
    if !(packageDir <+: file) then
      { report with missingAssets := report.missingAssets ++ [record.assetId] }
    else if some (sha256 data) ≠ record.sha256 then
      { report with failedAssets := report.failedAssets ++ [record.assetId] }
    else { report with verifiedCount := report.verifiedCount + 1 }

/-- The records that a package must hold. -/
def targetRecords (plan : PackagePlan) : List AssetRecord :=
  plan.deduplicatedAssets.filter fun r =>
    r.status = .resolved ∧ r.packagePath.getD "" ≠ "" ∧ r.sha256.getD "" ≠ ""

/-- The report of the validator on a package. `checkScene` is the check in Blender, if there is one.
-/
def validatePackage (sha256 : Bytes → String) (checkScene : Option (Option Bytes → SceneCheck))
    (plan : PackagePlan) (t : FileTree PathName Bytes) (packageDir : Path) :
    PackageIntegrityReport :=
  let records := targetRecords plan
  let report := records.foldl (validateOne sha256 t packageDir) { assetCount := records.length }
  let verified := report.failedAssets.isEmpty && report.missingAssets.isEmpty &&
    report.verifiedCount = records.length
  let blendFile := resolvePath (packageDir ++ [sceneDir]) (scenePath plan)
  let missingScene := !t.exists? blendFile
  let verified := verified && !missingScene
  let missing := report.missingAssets ++
    if missingScene then ["scene/" ++ plan.sceneName ++ ".blend"] else []
  let outcome := if verified then checkScene.map fun check => check (t.data? blendFile) else none
  let (verified, failed) := match outcome with
    | some .failed => (false, report.failedAssets ++ ["blender_asset_resolution_failed"])
    | some (.unavailable message) =>
      (false, report.failedAssets ++ ["blender_executable_unavailable: " ++ message])
    | some .passed | none => (verified, report.failedAssets)
  { report with
    verified
    failedAssets := sortBy (fun id => [.str id]) failed
    missingAssets := sortBy (fun id => [.str id]) missing }

/-! ## Publication -/

theorem slash_notMem_toString (n : ℕ) : '/' ∉ (toString n).toList := by
  intro hmem
  rw [Nat.toString_eq_repr, Nat.repr, String.toList_ofList] at hmem
  have hdigit := Nat.isDigit_of_mem_toDigits (by decide) (by decide) hmem
  exact absurd hdigit (by decide)

/-- The name that the former output directory is moved to. -/
def backupName (processId : ℕ) (name : PathName) : PathName :=
  name.append (".bak_" ++ toString processId) ⟨'_', by simp, by decide⟩ (by
    rw [String.toList_append, List.mem_append]
    exact fun hmem => hmem.elim (by decide) (slash_notMem_toString processId))

/-- Move the new package to the output directory; if that fails, move the former one back. -/
def moveIn (tmp final backup : Path) : Script PathName Bytes := fun t =>
  let (t, ok) := renameTo (faultAt fault .renameToFinal) tmp final t
  if ok then (t, true) else ((renameTo (faultAt fault .rollback) backup final t).1, false)

/-- Remove a directory, if there is something at its path. -/
def removeDir (call : Call) (p : Path) : Script PathName Bytes := fun t =>
  if t.exists? p then rmtree (faultAt fault call) p t else (t, true)

/-- Put a verified package in the place of the output directory. -/
def publish (tmp final backup : Path) : Script PathName Bytes := fun t =>
  if t.exists? final then
    ((removeDir fault .removeLeftover backup).andThen <|
      (renameTo (faultAt fault .renameToBackup) final backup).andThen <|
      (moveIn fault tmp final backup).andThen
        (rmtree (faultAt fault .removeBackup) backup)) t
  else renameTo (faultAt fault .renameToFinal) tmp final t

/-- The directory that a package is built in. -/
def temporaryDir (t : FileTree PathName Bytes) (parent : Path) : Path :=
  (if t.exists? parent then parent else env.tempRoot) ++ [env.tempName]

/-- Build a package, validate it, and publish it as a directory of `parent`. The answer is the
report, unless an error is raised. -/
def buildAndValidate (plan : PackagePlan) (parent : Path) (name : PathName)
    (validate : FileTree PathName Bytes → Path → PackageIntegrityReport) (sceneSource : String)
    (useBlender : Bool) (t : FileTree PathName Bytes) :
    FileTree PathName Bytes × Option PackageIntegrityReport :=
  let tmp := temporaryDir env t parent
  if (faultAt fault .mkdtemp).isSome || !t.isDir tmp.dropLast then (t, none)
  else
    let (built, complete) :=
      buildPackage env fault plan tmp sceneSource useBlender (t.put tmp .dir)
    let report := validate built tmp
    let (t, published) :=
      if complete && (faultAt fault .validate).isNone && report.verified then
        publish fault tmp (parent ++ [name]) (parent ++ [backupName env.processId name]) built
      else (built, false)
    let (t, clean) := removeDir fault .removeTemporary tmp t
    (t, if published && clean then some report else none)

/-! ### Names of the samples -/

/-- The directory of a package. -/
def sampleDir : PathName := ⟨"out", by decide, by decide, by decide, by decide⟩

/-- The file of its scene. -/
def sampleScene : PathName := ⟨"a.blend", by decide, by decide, by decide, by decide⟩

/-- The name of the directory that it is built in. -/
def sampleTempName : PathName := ⟨"aidar_pkg_x", by decide, by decide, by decide, by decide⟩

end Aidars.Packaging
