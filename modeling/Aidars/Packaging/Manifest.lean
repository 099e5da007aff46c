import Aidars.Foundations.Codec
import Aidars.Foundations.Unique
import Aidars.Packaging.Builder

/-!
# The two validators of a package

`validatePackage` checks a package against its plan, and `validateManifest` against the manifest in
it. The first reads the records to copy, of which there is one for each content; the second reads
all records back from the text of the manifest and keeps one for each path in the package.

`validators_agree_iff` says when they agree on a package that was built and then changed: when
every content has a record of an external asset, different contents have different paths, and the
scene, which only the first validator looks for, is there or some asset is not as it was.
-/

namespace Aidars

/-- A value is true as a condition. -/
def Json.isTruthy : Json → Bool
  | .null => false
  | .bool b => b
  | .int n => n ≠ 0
  | .float x => x ≠ .finite 0
  | .str s => s ≠ ""
  | .arr items => !items.isEmpty
  | .obj entries => !entries.isEmpty

/-- A member of an object is there and true as a condition. -/
def Json.holds (a : Json) (name : String) : Bool := (a.get? name).any Json.isTruthy

/-- A value is an object. -/
def Json.isObj : Json → Bool
  | .obj _ => true
  | _ => false

namespace Packaging

/-! ## The manifest -/

/-- The values of the statuses. -/
def AssetStatus.value : AssetStatus → String
  | .resolved => "resolved"
  | .embedded => "embedded"
  | .missing => "missing"
  | .generated => "generated"

/-- A record in the manifest, with its keys in the order in which they are written. -/
def AssetRecord.toDict (r : AssetRecord) : Json :=
  .obj
    [("asset_id", .str r.assetId),
      ("embedded", .bool r.isEmbedded),
      ("package_path", Codec.str.option.encode r.packagePath),
      ("relative_path", Codec.str.option.encode r.relativePath),
      ("sha256", Codec.str.option.encode r.sha256),
      ("size_bytes", .int r.sizeBytes),
      ("source_path", Codec.str.option.encode r.sourcePath),
      ("status", .str r.status.value)]

/-- The manifest of a plan, with its keys in the order in which they are written. -/
def PackagePlan.toDict (plan : PackagePlan) : Json :=
  .obj
    [("assets", .arr ((sortBy byId plan.allAssets).map AssetRecord.toDict)),
      ("missing", .arr ((sortBy byId plan.missingAssets).map AssetRecord.toDict)),
      ("package_id", .str plan.packageId),
      ("scene", .obj
        [("camera", .str plan.camera),
          ("frame_end", .int plan.frameEnd),
          ("frame_start", .int plan.frameStart),
          ("name", .str plan.sceneName)]),
      ("schema_version", .str "1.0")]

/-! ## Validation from the manifest -/

/-- The entries for the assets of a manifest. -/
def rawAssets : Json → Option (List Json)
  | .obj entries =>
    match entries.lookup "assets" with
    | none => some []
    | some (.arr items) => if items.all Json.isObj then some items else none
    | some _ => none
  | _ => none

/-- An entry for a resolved external asset with a path in the package and a hash. -/
def isExternal (a : Json) : Bool :=
  a.get? "status" = some (.str AssetStatus.resolved.value) && a.holds "package_path" &&
    a.holds "sha256" && !a.holds "embedded"

/-- What is read of the entry for an external asset. -/
def manifestRecord (a : Json) : Option AssetRecord :=
  (Codec.str.field a "asset_id").bind fun assetId =>
  (Codec.str.field a "package_path").bind fun packagePath =>
  (Codec.str.field a "sha256").map fun sha256 =>
    { assetId, packagePath, status := .resolved, sha256, isEmbedded := false }

/-- The records that a package must hold by its manifest, one for each path. -/
def manifestTargets (data : Json) : Option (List AssetRecord) :=
  (rawAssets data).bind fun assets =>
    ((assets.filter isExternal).mapM manifestRecord).map (keepFirst AssetRecord.packagePath)

/-- The report on the records that a package must hold. -/
def reportOn (sha256 : Bytes → String) (t : FileTree PathName Bytes) (packageDir : Path)
    (records : List AssetRecord) : PackageIntegrityReport :=
  let report := records.foldl (validateOne sha256 t packageDir) { assetCount := records.length }
  { report with
    verified := report.failedAssets.isEmpty && report.missingAssets.isEmpty &&
      report.verifiedCount = records.length
    failedAssets := sortBy (fun id => [.str id]) report.failedAssets
    missingAssets := sortBy (fun id => [.str id]) report.missingAssets }

/-- The report of the validator on the package of a manifest, unless there is no manifest or it has
another form. `loads` reads the text of a JSON value. -/
def validateManifest (sha256 : Bytes → String) (loads : Bytes → Option Json)
    (t : FileTree PathName Bytes) (manifestPath : Path) : Option PackageIntegrityReport :=
  (((t.data? manifestPath).bind loads).bind manifestTargets).map
    (reportOn sha256 t manifestPath.dropLast)

/-! ## Reports -/

/-- A record whose file a package must hold. -/
def IsTarget (r : AssetRecord) : Prop :=
  r.status = .resolved ∧ r.packagePath.getD "" ≠ "" ∧ r.sha256.getD "" ≠ ""

instance : DecidablePred IsTarget := fun _ => inferInstanceAs (Decidable (_ ∧ _))

/-- The file at a path in a package is there, and has a hash. -/
def isIntactAt (sha256 : Bytes → String) (t : FileTree PathName Bytes) (packageDir : Path)
    (place : Option String × Option String) : Bool :=
  let file := resolvePath packageDir (place.1.getD "")
  (t.data? file).any fun data => packageDir <+: file && some (sha256 data) = place.2

/-- Where the file of a record is in a package, and its hash. -/
def fileOf (r : AssetRecord) : Option String × Option String := (r.packagePath, r.sha256)

/-- The file of a record is in a package as it was. -/
def isIntact (sha256 : Bytes → String) (t : FileTree PathName Bytes) (packageDir : Path)
    (r : AssetRecord) : Bool :=
  isIntactAt sha256 t packageDir (fileOf r)

/-- The report names no asset. -/
def PackageIntegrityReport.isClean (report : PackageIntegrityReport) : Bool :=
  report.failedAssets.isEmpty && report.missingAssets.isEmpty

section Reports

variable (sha256 : Bytes → String) (t : FileTree PathName Bytes) (packageDir : Path)

/-- A turn of the loop counts the file of its record, or names the record. -/
theorem validateOne_spec (report : PackageIntegrityReport) (r : AssetRecord) :
    (validateOne sha256 t packageDir report r).assetCount = report.assetCount ∧
    (validateOne sha256 t packageDir report r).verifiedCount =
      report.verifiedCount + (if isIntact sha256 t packageDir r then 1 else 0) ∧
    (validateOne sha256 t packageDir report r).isClean =
      (report.isClean && isIntact sha256 t packageDir r) := by
  unfold validateOne isIntact isIntactAt fileOf
  cases hdata : t.data? (resolvePath packageDir (r.packagePath.getD "")) with
  | none => simp [hdata, PackageIntegrityReport.isClean]
  | some data =>
    by_cases hin : packageDir <+: resolvePath packageDir (r.packagePath.getD "")
    · by_cases hhash : some (sha256 data) = r.sha256
      · simp [hdata, hin, hhash, PackageIntegrityReport.isClean]
      · simp [hdata, hin, hhash, PackageIntegrityReport.isClean]
    · simp [hdata, hin, PackageIntegrityReport.isClean]

/-- The loop counts the files that are as they were, and names the others. -/
theorem foldl_validateOne (report : PackageIntegrityReport) (l : List AssetRecord) :
    (l.foldl (validateOne sha256 t packageDir) report).assetCount = report.assetCount ∧
    (l.foldl (validateOne sha256 t packageDir) report).verifiedCount =
      report.verifiedCount + l.countP (isIntact sha256 t packageDir) ∧
    (l.foldl (validateOne sha256 t packageDir) report).isClean =
      (report.isClean && l.all (isIntact sha256 t packageDir)) := by
  induction l generalizing report with
  | nil => simp
  | cons r l ih =>
    obtain ⟨hasset, hcount, hclean⟩ := ih (validateOne sha256 t packageDir report r)
    obtain ⟨hasset', hcount', hclean'⟩ := validateOne_spec sha256 t packageDir report r
    refine ⟨hasset.trans hasset', ?_, ?_⟩
    · rw [List.foldl_cons, hcount, hcount', List.countP_cons]
      omega
    · rw [List.foldl_cons, hclean, hclean', List.all_cons, Bool.and_assoc]

/-- All files of the records are in a package as they were. -/
def allIntact (sha256 : Bytes → String) (t : FileTree PathName Bytes) (packageDir : Path)
    (l : List AssetRecord) : Bool :=
  l.countP (isIntact sha256 t packageDir) = l.length

theorem allIntact_iff {l : List AssetRecord} :
    allIntact sha256 t packageDir l = true ↔ ∀ r ∈ l, isIntact sha256 t packageDir r = true := by
  rw [allIntact, decide_eq_true_iff, List.countP_eq_length]

theorem all_eq_allIntact (l : List AssetRecord) :
    l.all (isIntact sha256 t packageDir) = allIntact sha256 t packageDir l := by
  rw [Bool.eq_iff_iff, allIntact_iff, List.all_eq_true]

/-- What a report is compared by: its verdict and its counts. -/
def PackageIntegrityReport.summary (report : PackageIntegrityReport) : Bool × ℕ × ℕ :=
  (report.verified, report.verifiedCount, report.assetCount)

theorem clean_and_counted (l : List AssetRecord) :
    ((l.foldl (validateOne sha256 t packageDir) { assetCount := l.length }).isClean &&
      (l.foldl (validateOne sha256 t packageDir) { assetCount := l.length }).verifiedCount =
        l.length) = allIntact sha256 t packageDir l := by
  obtain ⟨-, hcount, hclean⟩ := foldl_validateOne sha256 t packageDir
    { assetCount := l.length } l
  rw [hclean, hcount, all_eq_allIntact, allIntact]
  simp [PackageIntegrityReport.isClean]

theorem summary_reportOn (l : List AssetRecord) :
    (reportOn sha256 t packageDir l).summary =
      (allIntact sha256 t packageDir l, l.countP (isIntact sha256 t packageDir), l.length) := by
  obtain ⟨hasset, hcount, -⟩ := foldl_validateOne sha256 t packageDir
    { assetCount := l.length } l
  rw [← clean_and_counted sha256 t packageDir l]
  simp only [PackageIntegrityReport.summary, reportOn, hasset, hcount]
  simp [PackageIntegrityReport.isClean]

/-- The path of the scene of a package. -/
def blendFile (plan : PackagePlan) (packageDir : Path) : Path :=
  resolvePath (packageDir ++ [sceneDir]) (scenePath plan)

/-- Without Blender, the validator of a plan looks for the scene besides checking the assets. -/
theorem summary_validatePackage (plan : PackagePlan) :
    (validatePackage sha256 none plan t packageDir).summary =
      (allIntact sha256 t packageDir (targetRecords plan) && t.exists? (blendFile plan packageDir),
        (targetRecords plan).countP (isIntact sha256 t packageDir),
        (targetRecords plan).length) := by
  obtain ⟨hasset, hcount, -⟩ := foldl_validateOne sha256 t packageDir
    { assetCount := (targetRecords plan).length } (targetRecords plan)
  rw [← clean_and_counted sha256 t packageDir (targetRecords plan)]
  simp only [PackageIntegrityReport.summary, validatePackage, hasset, hcount]
  simp [PackageIntegrityReport.isClean, blendFile]

end Reports

/-! ## Reading the manifest back -/

variable {sha256 : Bytes → String} {t : FileTree PathName Bytes} {packageDir : Path}
  {r : AssetRecord} {l : List AssetRecord}

/-- What comes back from the manifest of the record of an external asset. -/
def readBack (r : AssetRecord) : AssetRecord where
  assetId := r.assetId
  packagePath := r.packagePath
  status := .resolved
  sha256 := r.sha256
  isEmbedded := false

/-- The records of a plan that the validator of the manifest looks at. -/
def externalRecords (plan : PackagePlan) : List AssetRecord :=
  (sortBy byId plan.allAssets).filter fun r => IsTarget r ∧ r.isEmbedded = false

theorem value_eq_resolved_iff {status : AssetStatus} :
    status.value = AssetStatus.resolved.value ↔ status = .resolved := by
  cases status <;> simp [AssetStatus.value]

theorem isTruthy_encode_option (s : Option String) :
    (Codec.str.option.encode s).isTruthy = true ↔ s.getD "" ≠ "" := by
  cases s with
  | none => simp [Codec.option, Json.isTruthy]
  | some s => simp [Codec.option, Codec.str, Json.isTruthy]

theorem isExternal_toDict (r : AssetRecord) :
    isExternal r.toDict = decide (IsTarget r ∧ r.isEmbedded = false) := by
  have hpath := isTruthy_encode_option r.packagePath
  have hhash := isTruthy_encode_option r.sha256
  rw [Bool.eq_iff_iff, decide_eq_true_iff, IsTarget, ← hpath, ← hhash, ← value_eq_resolved_iff]
  cases hembedded : r.isEmbedded <;>
    simp [isExternal, AssetRecord.toDict, Json.get?, Json.holds, List.lookup_cons, hembedded,
      Json.isTruthy, and_assoc]

theorem eq_some_of_getD_ne {s : Option String} (h : s.getD "" ≠ "") : s = some (s.getD "") := by
  cases s with
  | none => exact absurd rfl h
  | some s => rfl

theorem manifestRecord_toDict (h : IsTarget r) : manifestRecord r.toDict = some (readBack r) := by
  have hpath := eq_some_of_getD_ne h.2.1
  have hhash := eq_some_of_getD_ne h.2.2
  generalize r.packagePath.getD "" = path at hpath
  generalize r.sha256.getD "" = hash at hhash
  have hid : Codec.str.field r.toDict "asset_id" = some r.assetId := rfl
  have hpackage : Codec.str.field r.toDict "package_path" = some path := by
    simp [AssetRecord.toDict, Codec.field_cons, hpath, Codec.option, Codec.str]
  have hsha : Codec.str.field r.toDict "sha256" = some hash := by
    simp [AssetRecord.toDict, Codec.field_cons, hhash, Codec.option, Codec.str]
  rw [manifestRecord, hid, hpackage, hsha, readBack, hpath, hhash]
  rfl

/-- The validator of the manifest keeps one external record of the plan for each path. -/
theorem manifestTargets_toDict (plan : PackagePlan) :
    manifestTargets plan.toDict =
      some (keepFirst AssetRecord.packagePath ((externalRecords plan).map readBack)) := by
  have hraw : rawAssets plan.toDict =
      some ((sortBy byId plan.allAssets).map AssetRecord.toDict) := by
    have hobj : ((sortBy byId plan.allAssets).map AssetRecord.toDict).all Json.isObj = true := by
      rw [List.all_map, List.all_eq_true]
      exact fun r _ => rfl
    simp [rawAssets, PackagePlan.toDict, hobj]
  have hfilter : ((sortBy byId plan.allAssets).map AssetRecord.toDict).filter isExternal =
      (externalRecords plan).map AssetRecord.toDict := by
    rw [List.filter_map, externalRecords]
    congr 1
    exact List.filter_congr fun r _ => isExternal_toDict r
  have hread : ((externalRecords plan).map AssetRecord.toDict).mapM manifestRecord =
      some ((externalRecords plan).map readBack) := by
    rw [List.mapM_map]
    refine Codec.mapM_eq_some_map fun r hr => ?_
    have htarget := (List.mem_filter.1 hr).2
    rw [decide_eq_true_iff] at htarget
    exact manifestRecord_toDict htarget.1
  rw [manifestTargets, hraw, Option.bind_some, hfilter, hread]
  rfl

/-! ## The records of a plan -/

theorem pairwise_dedupe_snd (seen : Dict String AssetRecord) (l : List AssetRecord) :
    (dedupe seen l).2.Pairwise fun a b => a.sha256 = b.sha256 → a.sha256 = none := by
  induction l generalizing seen with
  | nil => exact .nil
  | cons r l ih =>
    by_cases hstatus : r.status = .resolved
    · cases hsha : r.sha256 with
      | none =>
        rw [dedupe_cons_of_no_hash hstatus hsha]
        exact List.pairwise_cons.2 ⟨fun _ _ _ => hsha, ih seen⟩
      | some h =>
        cases hseen : seen.get? h with
        | none =>
          rw [dedupe_cons_of_new ⟨hstatus, hsha⟩ hseen]
          refine List.pairwise_cons.2 ⟨fun b hb heq => ?_, ih _⟩
          -- the hash of the record is seen in the rest of the loop
          have hhash : HasHash h b := ⟨resolved_of_mem_dedupe_snd hb, heq.symm.trans hsha⟩
          have hnew := ((mem_dedupe_snd hhash).1 hb).1
          rw [Dict.get?_set, if_pos rfl] at hnew
          cases hnew
        | some c =>
          rw [dedupe_cons_of_seen ⟨hstatus, hsha⟩ hseen]
          exact ih seen
    · rw [dedupe_cons_of_other hstatus]
      exact ih seen

/-- A resolved record of a plan with a hash is at the path of a record to copy, and there is one of
these for each hash. -/
structure PackagePlan.Canonical (plan : PackagePlan) : Prop where
  copied : ∀ h, ∀ r ∈ plan.allAssets, HasHash h r →
    ∃ c ∈ plan.deduplicatedAssets, HasHash h c ∧ r.packagePath = c.packagePath
  distinct : plan.deduplicatedAssets.Pairwise fun a b => a.sha256 = b.sha256 → a.sha256 = none

section Plan

variable {records : List AssetRecord} {packageId sceneName camera : String}
  {frameStart frameEnd : ℤ} {c : AssetRecord} {h : String}

/-- All records of a plan, with the paths of the first records with their hashes. -/
theorem mem_allAssets_createPlan :
    r ∈ (createPlan records packageId sceneName camera frameStart frameEnd).allAssets ↔
      ∃ r₀ ∈ sortBy byId records, placed (canonical (sortBy byId records)) r₀ = r := by
  have hfirst : firstSeen ∅ (sortBy byId records) = canonical (sortBy byId records) := rfl
  simp only [createPlan, dedupe_fst, hfirst, List.mem_map]

theorem mem_deduplicatedAssets_createPlan (hc : HasHash h c) :
    c ∈ (createPlan records packageId sceneName camera frameStart frameEnd).deduplicatedAssets ↔
      canonical (sortBy byId records) h = some c := by
  simp only [createPlan]
  rw [sortBy, List.mem_insertionSort, mem_dedupe_snd hc, and_iff_right (Dict.get?_empty h)]

theorem canonical_createPlan :
    (createPlan records packageId sceneName camera frameStart frameEnd).Canonical where
  copied h r hr hhash := by
    obtain ⟨r₀, hmem, rfl⟩ := mem_allAssets_createPlan.1 hr
    have hstatus : (placed (canonical (sortBy byId records)) r₀).status = r₀.status := by
      unfold placed
      split_ifs
      · rfl
      · split <;> rfl
    have hsha : (placed (canonical (sortBy byId records)) r₀).sha256 = r₀.sha256 := by
      unfold placed
      split_ifs
      · rfl
      · split <;> rfl
    have hhash₀ : HasHash h r₀ := ⟨hstatus ▸ hhash.1, hsha ▸ hhash.2⟩
    obtain ⟨c, hc⟩ := exists_canonical hhash₀ hmem
    have hhashC := (hasHash_of_canonical hc).2
    refine ⟨c, (mem_deduplicatedAssets_createPlan hhashC).2 hc, hhashC, ?_⟩
    rw [placed_of_hash hhash₀ hc]
  distinct := by
    simp only [createPlan]
    refine ((List.perm_insertionSort _ _).pairwise_iff ?_).2 (pairwise_dedupe_snd _ _)
    exact fun hab hba => hba ▸ hab hba.symm

end Plan

/-! ## Agreement -/

variable {plan : PackagePlan} {c c' : AssetRecord}

theorem mem_targetRecords : c ∈ targetRecords plan ↔ c ∈ plan.deduplicatedAssets ∧ IsTarget c := by
  rw [targetRecords, List.mem_filter, decide_eq_true_iff]
  rfl

theorem hasHash_of_isTarget (hr : IsTarget r) : HasHash (r.sha256.getD "") r :=
  ⟨hr.1, eq_some_of_getD_ne hr.2.2⟩

theorem mem_externalRecords :
    r ∈ externalRecords plan ↔ r ∈ plan.allAssets ∧ IsTarget r ∧ r.isEmbedded = false := by
  rw [externalRecords, List.mem_filter, decide_eq_true_iff, sortBy, List.mem_insertionSort]

/-- The condition under which the validators look at the same files: every content that must be in
the package has a record of an external asset, and different contents have different paths. -/
structure SameFiles (plan : PackagePlan) : Prop where
  external : ∀ c ∈ plan.deduplicatedAssets, IsTarget c →
    ∃ r ∈ plan.allAssets, r.status = .resolved ∧ r.sha256 = c.sha256 ∧ r.isEmbedded = false
  paths : ∀ c ∈ plan.deduplicatedAssets, ∀ c' ∈ plan.deduplicatedAssets, IsTarget c →
    IsTarget c' → c.packagePath = c'.packagePath → c.sha256 = c'.sha256

/-- The records that the validator of the manifest keeps. -/
def manifestRecords (plan : PackagePlan) : List AssetRecord :=
  keepFirst AssetRecord.packagePath ((externalRecords plan).map readBack)

namespace PackagePlan.Canonical

variable (hplan : plan.Canonical)

include hplan

theorem pairwise_targetRecords :
    (targetRecords plan).Pairwise fun a b => a.sha256 ≠ b.sha256 := by
  refine List.Pairwise.imp_of_mem (fun ha _ hab heq => ?_)
    (hplan.distinct.sublist List.filter_sublist)
  have hhash := (hasHash_of_isTarget (mem_targetRecords.1 ha).2).2
  rw [hab heq] at hhash
  cases hhash

/-- An external record of the plan is at the path of a record to copy with its hash. -/
theorem exists_target (hr : r ∈ externalRecords plan) :
    ∃ c ∈ targetRecords plan, r.packagePath = c.packagePath ∧ r.sha256 = c.sha256 := by
  obtain ⟨hmem, htarget, -⟩ := mem_externalRecords.1 hr
  have hhash := hasHash_of_isTarget htarget
  obtain ⟨c, hc, hhashC, hpath⟩ := hplan.copied _ r hmem hhash
  have hsha : r.sha256 = c.sha256 := hhash.2.trans hhashC.2.symm
  refine ⟨c, mem_targetRecords.2 ⟨hc, hhashC.1, ?_, ?_⟩, hpath, hsha⟩
  · exact hpath ▸ htarget.2.1
  · exact hsha ▸ htarget.2.2

theorem eq_of_hasHash (hc : c ∈ plan.deduplicatedAssets) (hc' : c' ∈ plan.deduplicatedAssets)
    {h : String} (hhash : HasHash h c) (hhash' : HasHash h c') : c = c' := by
  have hsymm : Std.Symm fun a b : AssetRecord => a.sha256 = b.sha256 → a.sha256 = none :=
    ⟨fun a b hab hba => hba ▸ hab hba.symm⟩
  by_contra hne
  have hnone := hplan.distinct.forall hc hc' hne (hhash.2.trans hhash'.2.symm)
  rw [hhash.2] at hnone
  cases hnone

theorem mem_externalRecords_of_target (hc : c ∈ targetRecords plan) (hr : r ∈ plan.allAssets)
    (hstatus : r.status = .resolved) (hsha : r.sha256 = c.sha256) (hext : r.isEmbedded = false) :
    r ∈ externalRecords plan ∧ r.packagePath = c.packagePath := by
  obtain ⟨hmem, htarget⟩ := mem_targetRecords.1 hc
  have hhash := hasHash_of_isTarget htarget
  obtain ⟨c', hc', hhash', hpath⟩ := hplan.copied _ r hr ⟨hstatus, hsha.trans hhash.2⟩
  obtain rfl := hplan.eq_of_hasHash hc' hmem hhash' hhash
  refine ⟨mem_externalRecords.2 ⟨hr, ⟨hstatus, ?_, ?_⟩, hext⟩, hpath⟩
  · exact hpath.symm ▸ htarget.2.1
  · exact hsha.symm ▸ htarget.2.2

/-- The files that the validator of the manifest looks at are at paths of records to copy. -/
theorem map_readBack_subset :
    ((externalRecords plan).map readBack).map AssetRecord.packagePath ⊆
      (targetRecords plan).map AssetRecord.packagePath := by
  intro path hpath
  obtain ⟨r', hr', rfl⟩ := List.mem_map.1 hpath
  obtain ⟨r, hr, rfl⟩ := List.mem_map.1 hr'
  obtain ⟨c, hc, hpath, -⟩ := hplan.exists_target hr
  exact hpath ▸ List.mem_map_of_mem hc

theorem exists_target_of_mem_manifestRecords (hr : r ∈ manifestRecords plan) :
    ∃ c ∈ targetRecords plan, fileOf r = fileOf c ∧
      ∃ r₀ ∈ externalRecords plan, r₀.sha256 = c.sha256 := by
  obtain ⟨r₀, hr₀, rfl⟩ := List.mem_map.1 ((keepFirst_sublist _).subset hr)
  obtain ⟨c, hc, hpath, hsha⟩ := hplan.exists_target hr₀
  exact ⟨c, hc, Prod.ext hpath hsha, r₀, hr₀, hsha⟩

/-- Validators that count the same number of assets look at the same files. -/
theorem sameFiles_of_length (hlen : (targetRecords plan).length = (manifestRecords plan).length) :
    SameFiles plan := by
  have hperm := perm_keys_of_length_eq hplan.map_readBack_subset
    (by rw [List.length_map]; exact hlen)
  have hnodup : ((targetRecords plan).map AssetRecord.packagePath).Nodup :=
    hperm.nodup_iff.1 (nodup_map_keepFirst _)
  have hpaths : ∀ c ∈ targetRecords plan, ∀ c' ∈ targetRecords plan,
      c.packagePath = c'.packagePath → c = c' := List.inj_on_of_nodup_map hnodup
  constructor
  · intro c hc htarget
    have hmem := mem_targetRecords.2 ⟨hc, htarget⟩
    obtain ⟨r, hr, hpath⟩ := List.mem_map.1 (hperm.mem_iff.2 (List.mem_map_of_mem hmem))
    obtain ⟨c', hc', hfile, r₀, hr₀, hsha⟩ := hplan.exists_target_of_mem_manifestRecords hr
    -- the record to copy at the path of the entry is the one that was given
    obtain rfl := hpaths c' hc' c hmem ((congrArg Prod.fst hfile).symm.trans hpath)
    obtain ⟨hall, htarget₀, hext⟩ := mem_externalRecords.1 hr₀
    exact ⟨r₀, hall, htarget₀.1, hsha, hext⟩
  · intro c hc c' hc' htarget htarget' hpath
    rw [hpaths c (mem_targetRecords.2 ⟨hc, htarget⟩) c' (mem_targetRecords.2 ⟨hc', htarget'⟩) hpath]

/-- Validators that look at the same files look at each of them once. -/
theorem perm_files (hsame : SameFiles plan) :
    ((manifestRecords plan).map fileOf).Perm ((targetRecords plan).map fileOf) := by
  have hpaths : ∀ c ∈ targetRecords plan, ∀ c' ∈ targetRecords plan,
      c.packagePath = c'.packagePath → c.sha256 = c'.sha256 := fun c hc c' hc' =>
    hsame.paths c (mem_targetRecords.1 hc).1 c' (mem_targetRecords.1 hc').1
      (mem_targetRecords.1 hc).2 (mem_targetRecords.1 hc').2
  have hnodup : ((manifestRecords plan).map fileOf).Nodup := by
    have hkeys : ((manifestRecords plan).map AssetRecord.packagePath).Nodup :=
      nodup_map_keepFirst _
    refine List.Nodup.of_map Prod.fst ?_
    rwa [List.map_map]
  have hnodup' : ((targetRecords plan).map fileOf).Nodup := by
    refine List.Nodup.of_map Prod.snd ?_
    rw [List.map_map]
    exact List.pairwise_map.2 hplan.pairwise_targetRecords
  refine (List.perm_ext_iff_of_nodup hnodup hnodup').2 fun file => ⟨?_, ?_⟩ <;> intro hfile
  · obtain ⟨r, hr, rfl⟩ := List.mem_map.1 hfile
    obtain ⟨c, hc, heq, -⟩ := hplan.exists_target_of_mem_manifestRecords hr
    exact heq ▸ List.mem_map_of_mem hc
  · obtain ⟨c, hc, rfl⟩ := List.mem_map.1 hfile
    obtain ⟨hmem, htarget⟩ := mem_targetRecords.1 hc
    obtain ⟨r₀, hr₀, hstatus, hsha, hext⟩ := hsame.external c hmem htarget
    obtain ⟨hr₀, hpath⟩ := hplan.mem_externalRecords_of_target hc hr₀ hstatus hsha hext
    -- an entry is kept for the path, and it has the hash of the record to copy there
    have hkey : c.packagePath ∈ (manifestRecords plan).map AssetRecord.packagePath := by
      refine mem_map_keepFirst.2 ?_
      rw [List.map_map, ← hpath]
      exact List.mem_map_of_mem (f := AssetRecord.packagePath ∘ readBack) hr₀
    obtain ⟨u, hu, hupath⟩ := List.mem_map.1 hkey
    obtain ⟨c', hc', heq, -⟩ := hplan.exists_target_of_mem_manifestRecords hu
    have hpath' : c'.packagePath = c.packagePath := (congrArg Prod.fst heq).symm.trans hupath
    have hfile' : fileOf c' = fileOf c := Prod.ext hpath' (hpaths c' hc' c hc hpath')
    exact hfile' ▸ heq ▸ List.mem_map_of_mem hu

theorem length_eq (hsame : SameFiles plan) :
    (targetRecords plan).length = (manifestRecords plan).length := by
  have hlen := (hplan.perm_files hsame).length_eq
  rw [List.length_map, List.length_map] at hlen
  exact hlen.symm

theorem countP_eq (hsame : SameFiles plan) :
    (targetRecords plan).countP (isIntact sha256 t packageDir) =
      (manifestRecords plan).countP (isIntact sha256 t packageDir) := by
  have hcount := (hplan.perm_files hsame).countP_eq (isIntactAt sha256 t packageDir)
  rw [List.countP_map, List.countP_map] at hcount
  exact hcount.symm

end PackagePlan.Canonical

/-- Two validators give the same verdict and count the same. -/
def Agree (report : PackageIntegrityReport) (other : Option PackageIntegrityReport) : Prop :=
  ∃ report', other = some report' ∧ report.verified = report'.verified ∧
    report.verifiedCount = report'.verifiedCount ∧ report.assetCount = report'.assetCount

/-- A build that completes writes the manifest last. -/
theorem manifest_of_buildPackage {env : Environment} {fault : Option Fault} {dest : Path}
    {sceneSource : String} {useBlender : Bool} {t₀ built : FileTree PathName Bytes}
    (h : buildPackage env fault plan dest sceneSource useBlender t₀ = (built, true)) :
    built.data? (dest ++ [manifestFile]) = some (env.manifestText plan) := by
  have hwrite := Script.eq_of_andThen_eq (Script.eq_of_andThen_eq (Script.eq_of_andThen_eq h))
  unfold writeFile at hwrite
  split_ifs at hwrite
  · cases hwrite
  · cases hfault : faultAt fault .writeManifest with
    | none =>
      simp only [hfault, Prod.mk.injEq, and_true] at hwrite
      rw [← hwrite]
      simp [FileTree.data?, FileTree.put]
    | some f =>
      simp only [hfault] at hwrite
      split at hwrite <;> cases hwrite

theorem agree_iff_of_manifest (hplan : plan.Canonical) {loads : Bytes → Option Json}
    (hmanifest : (t.data? (packageDir ++ [manifestFile])).bind loads = some plan.toDict) :
    Agree (validatePackage sha256 none plan t packageDir)
        (validateManifest sha256 loads t (packageDir ++ [manifestFile])) ↔
      SameFiles plan ∧ (t.exists? (blendFile plan packageDir) = true ∨
        ∃ c ∈ plan.deduplicatedAssets, IsTarget c ∧ isIntact sha256 t packageDir c = false) := by
  have hother : validateManifest sha256 loads t (packageDir ++ [manifestFile]) =
      some (reportOn sha256 t packageDir (manifestRecords plan)) := by
    rw [validateManifest, hmanifest, Option.bind_some, manifestTargets_toDict, Option.map_some,
      List.dropLast_concat]
    rfl
  have hplanned := summary_validatePackage sha256 t packageDir plan
  have hread := summary_reportOn sha256 t packageDir (manifestRecords plan)
  simp only [PackageIntegrityReport.summary, Prod.mk.injEq] at hplanned hread
  obtain ⟨hverified, hcount, hasset⟩ := hplanned
  obtain ⟨hverified', hcount', hasset'⟩ := hread
  rw [Agree, hother]
  simp only [Option.some.injEq, exists_eq_left', hverified, hverified', hcount, hcount', hasset,
    hasset']
  have hall (hcount : (targetRecords plan).countP (isIntact sha256 t packageDir) =
        (manifestRecords plan).countP (isIntact sha256 t packageDir))
      (hlen : (targetRecords plan).length = (manifestRecords plan).length) :
      allIntact sha256 t packageDir (targetRecords plan) =
        allIntact sha256 t packageDir (manifestRecords plan) := by
    rw [allIntact, allIntact, hcount, hlen]
  have hbroken : allIntact sha256 t packageDir (targetRecords plan) = false ↔
      ∃ c ∈ plan.deduplicatedAssets, IsTarget c ∧ isIntact sha256 t packageDir c = false := by
    rw [← Bool.not_eq_true, allIntact_iff]
    simp [mem_targetRecords]
  rw [← hbroken]
  constructor
  · rintro ⟨hverdict, hcount, hlen⟩
    refine ⟨hplan.sameFiles_of_length hlen, ?_⟩
    rw [← hall hcount hlen] at hverdict
    cases hintact : allIntact sha256 t packageDir (targetRecords plan) with
    | false => exact .inr rfl
    | true =>
      rw [hintact, Bool.true_and] at hverdict
      exact .inl hverdict
  · rintro ⟨hsame, hrest⟩
    refine ⟨?_, hplan.countP_eq hsame, hplan.length_eq hsame⟩
    rw [← hall (hplan.countP_eq hsame) (hplan.length_eq hsame)]
    obtain hscene | hintact := hrest
    · rw [hscene, Bool.and_true]
    · rw [hintact, Bool.false_and]

/-- **The validators of a package agree, whatever becomes of its files, exactly when they look at
the same files and the scene is there or one of the files is not as it was.** -/
theorem validators_agree_iff {env : Environment} {fault : Option Fault}
    {records : List AssetRecord} {packageId sceneName camera : String} {frameStart frameEnd : ℤ}
    {dest : Path} {sceneSource : String} {useBlender : Bool} {t₀ built : FileTree PathName Bytes}
    (sha256 : Bytes → String) (loads : Bytes → Option Json)
    (hplan : plan = createPlan records packageId sceneName camera frameStart frameEnd)
    (hloads : loads (env.manifestText plan) = some plan.toDict)
    (hbuild : buildPackage env fault plan dest sceneSource useBlender t₀ = (built, true))
    (hmanifest : t.data? (dest ++ [manifestFile]) = built.data? (dest ++ [manifestFile])) :
    Agree (validatePackage sha256 none plan t dest)
        (validateManifest sha256 loads t (dest ++ [manifestFile])) ↔
      SameFiles plan ∧ (t.exists? (blendFile plan dest) = true ∨
        ∃ c ∈ plan.deduplicatedAssets, IsTarget c ∧ isIntact sha256 t dest c = false) := by
  have hcanonical : plan.Canonical := hplan ▸ canonical_createPlan
  refine agree_iff_of_manifest hcanonical ?_
  rw [hmanifest, manifest_of_buildPackage hbuild, Option.bind_some, hloads]

/-! ### A sample -/

namespace Manifest

/-- A directory with a scene and an image. -/
def sampleFiles : FileTree PathName Bytes := fun p =>
  if p = [] then some .dir
  else if p = [sampleScene] then some (.file [1])
  else if p = [⟨"wood.png", by decide, by decide, by decide, by decide⟩] then some (.file [2])
  else none

/-- A hash for the sample. -/
def sampleHash (data : Bytes) : String := toString (data.map UInt8.toNat)

/-- The record of the image. -/
def sampleRecord : AssetRecord where
  assetId := "image:wood.png"
  sourcePath := some "/wood.png"
  relativePath := some "wood.png"
  packagePath := some "assets/wood.png"
  status := .resolved
  sha256 := some "[2]"
  sizeBytes := 1
  isEmbedded := false

/-- The plan of a package with the image. -/
def samplePlan : PackagePlan := createPlan [sampleRecord] "p" "a" "" 1 24

/-- A build without Blender. -/
def sampleEnv : Environment where
  tempName := sampleTempName
  manifestText := fun _ => [3]
  mappingText := fun _ => []
  blender := fun _ _ => (none, true)

/-- The text of the manifest is read as the manifest. -/
def sampleLoads (text : Bytes) : Option Json := if text = [3] then some samplePlan.toDict else none

/-- The files after a build. -/
def sampleBuilt : FileTree PathName Bytes :=
  (buildPackage sampleEnv none samplePlan [sampleDir] "/a.blend" false sampleFiles).1

/-- The files of the package with the scene removed. -/
def sampleWithoutScene : FileTree PathName Bytes :=
  sampleBuilt.remove (blendFile samplePlan [sampleDir]) fun _ => false

theorem build_sample :
    buildPackage sampleEnv none samplePlan [sampleDir] "/a.blend" false sampleFiles =
      (sampleBuilt, true) :=
  Prod.ext rfl (by decide +kernel)

/-- The validators agree on the package as it was built. -/
theorem validators_agree_built :
    Agree (validatePackage sampleHash none samplePlan sampleBuilt [sampleDir])
      (validateManifest sampleHash sampleLoads sampleBuilt ([sampleDir] ++ [manifestFile])) :=
  (validators_agree_iff sampleHash sampleLoads rfl rfl build_sample rfl).2
    ⟨⟨by decide +kernel, by decide +kernel⟩, .inl (by decide +kernel)⟩

/-- When the scene of a package is removed, the validator of the plan rejects the package and the
validator of the manifest accepts it. -/
theorem scene_removed :
    (buildPackage sampleEnv none samplePlan [sampleDir] "/a.blend" false sampleFiles).2 = true ∧
    sampleWithoutScene.data? ([sampleDir] ++ [manifestFile]) =
      sampleBuilt.data? ([sampleDir] ++ [manifestFile]) ∧
    ¬ Agree (validatePackage sampleHash none samplePlan sampleWithoutScene [sampleDir])
      (validateManifest sampleHash sampleLoads sampleWithoutScene
        ([sampleDir] ++ [manifestFile])) := by
  refine ⟨by decide +kernel, by decide +kernel, ?_⟩
  rintro ⟨report, hreport, hverdict, -⟩
  have hrejects : (validatePackage sampleHash none samplePlan sampleWithoutScene
      [sampleDir]).verified = false := by decide +kernel
  have haccepts : (validateManifest sampleHash sampleLoads sampleWithoutScene
      ([sampleDir] ++ [manifestFile])).map PackageIntegrityReport.verified = some true := by
    decide +kernel
  rw [hreport, Option.map_some, Option.some.injEq, ← hverdict, hrejects] at haccepts
  cases haccepts

end Manifest

end Packaging

end Aidars
