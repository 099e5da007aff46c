import Aidars.Packaging.Builder

/-!
# Remapping of paths

A package should hold the file of every resolved asset at the record's own path, and the mapping
handed to the script should lead there from the asset's source path, its relative path and its name.

The mapping is filled from the records that are copied, so a duplicate is mapped only as far as it
shares the keys of the record copied for it, and records with different contents must not share a
key or a path. `remapped_iff` says that this is all that is needed.
-/

namespace Aidars.Packaging

open FileTree Script

/-! ## Keys -/

/-- The keys that a record is looked up with. -/
def recordKeys (cwd : Path) (r : AssetRecord) : List String :=
  (r.sourcePath.map fun source => pathStr (resolvePath cwd source)).toList ++
    r.relativePath.toList ++ [assetName r.assetId]

variable {t : FileTree PathName Bytes} {sha256 : Bytes → String} {records : List AssetRecord}
  {cwd dest : Path} {r c : AssetRecord} {k h h' : String}

theorem pathStr_ne_empty (p : Path) : pathStr p ≠ "" := by
  intro heq
  have hlist := congrArg String.toList heq
  simp [pathStr] at hlist

theorem packagePathOf_ne_empty (fileHash : String) (p : Path) : packagePathOf fileHash p ≠ "" := by
  intro heq
  have hlist := congrArg String.toList heq
  simp [packagePathOf] at hlist

theorem copied_of_found (hr : Found t sha256 r) : ∃ file data, t.data? file = some data ∧
    r.sha256 = some (sha256 data) ∧ r.sourcePath = some (pathStr file) ∧
    r.packagePath = some (packagePathOf (sha256 data) file) ∧
    copied r = some (pathStr file, packagePathOf (sha256 data) file) := by
  obtain ⟨file, cleanRel, data, hdata, -, heq⟩ := hr
  refine ⟨file, data, hdata, by rw [heq]; rfl, by rw [heq]; rfl, by rw [heq]; rfl, ?_⟩
  rw [heq]
  simp [copied, resolvedRecord, pathStr_ne_empty, packagePathOf_ne_empty]

/-- The entries of a found record are its keys with its own path. -/
theorem mem_mappingEntries (hr : Found t sha256 r) {v : String} :
    (k, v) ∈ mappingEntries cwd r ↔ k ∈ recordKeys cwd r ∧ r.packagePath.map newPath = some v := by
  obtain ⟨file, cleanRel, data, -, hrel, heq⟩ := hr
  have hentries : mappingEntries cwd r =
      [pathStr (resolvePath cwd (pathStr file)), cleanRel, cleanRel, assetName r.assetId].map
        fun k => (k, newPath (packagePathOf (sha256 data) file)) := by
    rw [heq]
    simp [mappingEntries, copied, resolvedRecord, pathStr_ne_empty, packagePathOf_ne_empty,
      normalizeSlashes_of_notMem hrel]
  have hkeys : recordKeys cwd r =
      [pathStr (resolvePath cwd (pathStr file)), cleanRel, assetName r.assetId] := by
    rw [heq]
    rfl
  have hpath : r.packagePath = some (packagePathOf (sha256 data) file) := by rw [heq]; rfl
  rw [hentries, hkeys, hpath]
  simp [eq_comm]
  tauto

/-! ## The property and its condition -/

/-- The bytes of the file of a record. -/
def content (t : FileTree PathName Bytes) (cwd : Path) (r : AssetRecord) : Option Bytes :=
  r.sourcePath.bind fun source => t.data? (resolvePath cwd source)

/-- Records share a path only if their contents are equal, the file at the path of a record has its
hash, and every key of a record is mapped to its path. -/
structure Remapped (sha256 : Bytes → String) (env : Environment) (t : FileTree PathName Bytes)
    (dest : Path) (plan : PackagePlan) : Prop where
  distinct : ∀ r₁ ∈ plan.allAssets, ∀ r₂ ∈ plan.allAssets, r₁.status = .resolved →
    r₂.status = .resolved → r₁.packagePath = r₂.packagePath →
    content t env.cwd r₁ = content t env.cwd r₂
  complete : (copyAssets env none plan dest (t.put dest .dir)).2 = true
  stored : ∀ r ∈ plan.allAssets, r.status = .resolved → ∃ package data,
    r.packagePath = some package ∧ r.sha256 = some (sha256 data) ∧
      (copyAssets env none plan dest (t.put dest .dir)).1.data? (resolvePath dest package) =
        some data
  mapped : ∀ r ∈ plan.allAssets, r.status = .resolved → ∀ k ∈ recordKeys env.cwd r,
    (pathMapping env.cwd plan).get? k = r.packagePath.map newPath

/-- The first records with different contents have different paths and no key in common, and every
record has no other keys than the first record with its content. -/
structure Unambiguous (cwd : Path) (records : List AssetRecord) : Prop where
  paths : ∀ h₁ h₂ c₁ c₂, canonical records h₁ = some c₁ → canonical records h₂ = some c₂ →
    c₁ ≠ c₂ → c₁.packagePath ≠ c₂.packagePath
  keys : ∀ h₁ h₂ c₁ c₂, canonical records h₁ = some c₁ → canonical records h₂ = some c₂ →
    c₁ ≠ c₂ → ∀ k ∈ recordKeys cwd c₁, k ∉ recordKeys cwd c₂
  duplicates : ∀ h c, canonical records h = some c → ∀ r ∈ records, HasHash h r →
    ∀ k ∈ recordKeys cwd r, k ∈ recordKeys cwd c

/-- The path of a package is new, in a directory. -/
structure NewDir (t : FileTree PathName Bytes) (dest : Path) : Prop where
  absent : ∀ q, t (dest ++ q) = none
  parents : ∀ q, q <+: dest → q ≠ dest → t q = some .dir

/-! ## Mapping -/

section

variable {packageId sceneName camera : String} {frameStart frameEnd : ℤ}

theorem Records.found_canonical (hrecords : Records t sha256 records)
    (hc : canonical records h = some c) : HasHash h c ∧ Found t sha256 c := by
  obtain ⟨hmem, hhash⟩ := hasHash_of_canonical hc
  exact ⟨hhash, hrecords.found c hmem hhash.1⟩

theorem Records.hash_of_resolved (hrecords : Records t sha256 records) (hr : r ∈ records)
    (hres : r.status = .resolved) : ∃ h c, HasHash h r ∧ canonical records h = some c := by
  obtain ⟨file, data, -, hsha, -⟩ := copied_of_found (hrecords.found r hr hres)
  obtain ⟨c, hc⟩ := exists_canonical ⟨hres, hsha⟩ hr
  exact ⟨_, c, ⟨hres, hsha⟩, hc⟩

/-- The entries of the mapping are those of the first records with the hashes. -/
theorem Records.mem_entries (hrecords : Records t sha256 records) {v : String} :
    (k, v) ∈ (createPlan records packageId sceneName camera frameStart
      frameEnd).deduplicatedAssets.flatMap (mappingEntries cwd) ↔
    ∃ h c, canonical records h = some c ∧ k ∈ recordKeys cwd c ∧
      c.packagePath.map newPath = some v := by
  rw [List.mem_flatMap]
  constructor
  · rintro ⟨d, hd, hentry⟩
    have hmem := hrecords.subset_deduplicatedAssets hd
    have hres := hrecords.resolved_deduplicatedAssets hd
    obtain ⟨h, c, hhash, -⟩ := hrecords.hash_of_resolved hmem hres
    exact ⟨h, d, (hrecords.mem_deduplicatedAssets hhash).1 hd,
      (mem_mappingEntries (hrecords.found d hmem hres)).1 hentry⟩
  · rintro ⟨h, c, hc, hentry⟩
    obtain ⟨hhash, hfound⟩ := hrecords.found_canonical hc
    exact ⟨c, (hrecords.mem_deduplicatedAssets hhash).2 hc, (mem_mappingEntries hfound).2 hentry⟩

theorem Records.entry_of_mapping (hrecords : Records t sha256 records) {v : String}
    (hget : (pathMapping cwd (createPlan records packageId sceneName camera frameStart
      frameEnd)).get? k = some v) :
    ∃ h c, canonical records h = some c ∧ k ∈ recordKeys cwd c ∧
      c.packagePath.map newPath = some v := by
  obtain hmem | hnone := Dict.mem_of_get?_foldl_set hget
  · exact hrecords.mem_entries.1 hmem
  · cases hnone

theorem Records.mapping_of_entry (hrecords : Records t sha256 records)
    (hc : canonical records h = some c)
    (hk : k ∈ recordKeys cwd c)
    (hkeys : ∀ h' c', canonical records h' = some c' → c' ≠ c → k ∉ recordKeys cwd c') :
    (pathMapping cwd (createPlan records packageId sceneName camera frameStart frameEnd)).get? k =
      c.packagePath.map newPath := by
  obtain ⟨file, data, -, -, -, hpath, -⟩ := copied_of_found (hrecords.found_canonical hc).2
  rw [hpath, Option.map_some]
  refine Dict.get?_foldl_set_of_forall (fun e he hek => ?_)
    (.inl ⟨(k, newPath (packagePathOf (sha256 data) file)), ?_, rfl⟩)
  · obtain ⟨k', v⟩ := e
    obtain rfl : k' = k := hek
    obtain ⟨h', c', hc', hk', hv⟩ := hrecords.mem_entries.1 he
    have hsame : c' = c := by_contra fun hne => hkeys h' c' hc' hne hk'
    rw [hsame, hpath, Option.map_some] at hv
    exact (Option.some.inj hv).symm
  · exact hrecords.mem_entries.2 ⟨h, c, hc, hk, by rw [hpath]; rfl⟩

end

/-! ## Copying -/

/-- The name of a file in a package. -/
def packageName (fileHash : String) (hhash : IsDigest fileHash) (p : Path) : PathName :=
  have hdots (s : String) (hs : '_' ∉ s.toList) :
      String.ofList (fileHash.toList.take 8) ++ "_" ++ fileName p ≠ s := by
    rintro rfl
    simp at hs
  { text := String.ofList (fileHash.toList.take 8) ++ "_" ++ fileName p
    ne_empty := hdots "" (by decide)
    ne_dot := hdots "." (by decide)
    ne_up := hdots ".." (by decide)
    no_slash := by
      simp only [String.toList_append, List.mem_append, not_or, String.toList_ofList]
      refine ⟨⟨fun h => ?_, by decide⟩, ?_⟩
      · exact absurd (hhash.2 _ (List.mem_of_mem_take h)) (by decide)
      · unfold fileName
        cases p.getLast? with
        | none => simp
        | some n => exact n.no_slash }

theorem packagePathOf_eq (fileHash : String) (hhash : IsDigest fileHash) (p : Path) :
    packagePathOf fileHash p = relStr [assetsDir, packageName fileHash hhash p] := by
  rw [← String.toList_inj]
  simp [packagePathOf, relStr, packageName, assetsDir]

/-- How a tree looks while assets are copied to a new directory. -/
structure Copying (t t' : FileTree PathName Bytes) (dest : Path) : Prop where
  dirs : ∀ q, q <+: dest → t' q = some .dir
  assets : t' (dest ++ [assetsDir]) = none ∨ t' (dest ++ [assetsDir]) = some .dir
  files : ∀ n, t'.isDir (dest ++ [assetsDir, n]) = false
  outside : ∀ p, ¬ dest <+: p → t' p = t p

variable {t' : FileTree PathName Bytes} {env : Environment}

theorem NewDir.copying (h : NewDir t dest) : Copying t (t.put dest .dir) dest where
  dirs q hq := by
    by_cases heq : q = dest
    · simp [put, heq]
    · simp [put, heq, h.parents q hq heq]
  assets := .inl (by simp [put, h.absent])
  files n := by simp [isDir, put, h.absent]
  outside p hp := by
    have hne : p ≠ dest := fun heq => hp (heq ▸ List.prefix_rfl)
    simp [put, hne]

theorem mkdirs_apply_of_dir {p q : Path} (h : t q = some .dir) : t.mkdirs p q = some .dir := by
  simp [mkdirs, h]

theorem mkdirs_apply_of_not_leads {p q : Path} (h : ¬ q <+: p) : t.mkdirs p q = t q := by
  simp [mkdirs, h]

theorem writeFile_none {p : Path} (hdir : t.isDir p.dropLast = true) (hp : t.isDir p = false)
    (data : Bytes) : writeFile none p data t = (t.put p (.file data), true) := by
  simp [writeFile, hdir, hp]

namespace Copying

/-- The directory of assets can be made. -/
theorem mkdir_eq (h : Copying t t' dest) :
    Packaging.mkdir none (dest ++ [assetsDir]) t' = (t'.mkdirs (dest ++ [assetsDir]), true) := by
  have hfile : (dest ++ [assetsDir]).inits.any (fun q => t'.isFile q) = false := by
    rw [List.any_eq_false]
    intro q hq
    obtain rfl | hq := List.prefix_concat_iff.1 ((List.mem_inits _ _).1 hq)
    · obtain hnone | hdir := h.assets
      · simp [isFile, hnone]
      · simp [isFile, hdir]
    · simp [isFile, h.dirs q hq]
  rw [Packaging.mkdir, hfile]
  rfl

theorem mkdirs_assets (h : Copying t t' dest) :
    t'.mkdirs (dest ++ [assetsDir]) (dest ++ [assetsDir]) = some .dir := by
  obtain hnone | hdir := h.assets
  · simp [mkdirs, hnone]
  · exact mkdirs_apply_of_dir hdir

theorem mkdirs_file (n : PathName) :
    t'.mkdirs (dest ++ [assetsDir]) (dest ++ [assetsDir, n]) = t' (dest ++ [assetsDir, n]) := by
  refine mkdirs_apply_of_not_leads fun hleads => ?_
  have hlen := hleads.length_le
  simp at hlen

protected theorem mkdirs (h : Copying t t' dest) :
    Copying t (t'.mkdirs (dest ++ [assetsDir])) dest where
  dirs q hq := mkdirs_apply_of_dir (h.dirs q hq)
  assets := .inr h.mkdirs_assets
  files n := by rw [isDir, mkdirs_file, ← isDir, h.files n]
  outside p hp := by
    by_cases hleads : p <+: dest ++ [assetsDir]
    · obtain rfl | hq := List.prefix_concat_iff.1 hleads
      · exact absurd (List.prefix_append _ _) hp
      · rw [mkdirs_apply_of_dir (h.dirs p hq), ← h.outside p hp, h.dirs p hq]
    · rw [mkdirs_apply_of_not_leads hleads, h.outside p hp]

theorem put (h : Copying t t' dest) (hassets : t' (dest ++ [assetsDir]) = some .dir) (n : PathName)
    (data : Bytes) : Copying t (t'.put (dest ++ [assetsDir, n]) (.file data)) dest where
  dirs q hq := by
    have hne : q ≠ dest ++ [assetsDir, n] := by
      rintro rfl
      have hlen := hq.length_le
      simp at hlen
    simp [FileTree.put, hne, h.dirs q hq]
  assets := by
    simp [FileTree.put, hassets]
  files m := by
    by_cases hm : m = n
    · simp [FileTree.put, isDir, hm]
    · have hfile := h.files m
      simpa [FileTree.put, isDir, hm] using hfile
  outside p hp := by
    have hne : p ≠ dest ++ [assetsDir, n] := fun heq => hp (heq ▸ List.prefix_append _ _)
    simp [FileTree.put, hne, h.outside p hp]

end Copying

/-- **One copy.** The file of a found record gets to its path, and nothing else in the directory of
assets changes. -/
theorem copyAsset_spec (env : Environment) (hdigest : ∀ d, IsDigest (sha256 d))
    (hdest : NewDir t dest)
    (h : Copying t t' dest) {file : Path} {data : Bytes} (hdata : t.data? file = some data)
    (hcopied : copied c = some (pathStr file, packagePathOf (sha256 data) file)) (i : ℕ) :
    ∃ after, copyAsset env none dest (c, i) t' = (after, true) ∧ Copying t after dest ∧
      after (dest ++ [assetsDir, packageName (sha256 data) (hdigest data) file]) =
        some (.file data) ∧
      ∀ m, m ≠ packageName (sha256 data) (hdigest data) file →
        after (dest ++ [assetsDir, m]) = t' (dest ++ [assetsDir, m]) := by
  generalize hn : packageName (sha256 data) (hdigest data) file = n
  have houtside : ¬ dest <+: file := by
    rintro ⟨q, rfl⟩
    simp [data?, hdest.absent] at hdata
  -- the source is read in the tree with the directory of assets
  have hsource : (t'.mkdirs (dest ++ [assetsDir])).data? file = some data := by
    rw [data?, h.mkdirs.outside file houtside, ← data?, hdata]
  have hisFile : (t'.mkdirs (dest ++ [assetsDir])).isFile file = true := by
    rw [data?] at hsource
    rw [isFile]
    split at hsource <;> simp_all
  have hdir : (t'.mkdirs (dest ++ [assetsDir])).isDir (dest ++ [assetsDir]) = true := by
    rw [isDir, h.mkdirs_assets]
  have hne : dest ++ [assetsDir, n] ≠ file := fun heq => houtside (heq ▸ List.prefix_append _ _)
  refine ⟨(t'.mkdirs (dest ++ [assetsDir])).put (dest ++ [assetsDir, n]) (.file data), ?_,
    h.mkdirs.put h.mkdirs_assets n data, by simp [FileTree.put], fun m hm => ?_⟩
  · have hmkdir : mkdir (faultAt none (.mkdirAsset i)) (dest ++ [assetsDir, n].dropLast) t' =
        (t'.mkdirs (dest ++ [assetsDir]), true) := h.mkdir_eq
    have htarget : copyTarget (t'.mkdirs (dest ++ [assetsDir])) file (dest ++ [assetsDir, n]) =
        dest ++ [assetsDir, n] := by
      rw [copyTarget, h.mkdirs.files n]
      rfl
    have hparent : (dest ++ [assetsDir, n]).dropLast = dest ++ [assetsDir] := by simp
    simp only [copyAsset, hcopied, packagePathOf_eq _ (hdigest data), hn, resolveParent_relStr,
      resolvePath_relStr, resolvePath_pathStr]
    rw [andThen_eq hmkdir, if_pos hisFile, copyFile, hsource]
    simp only [htarget, hne, if_false]
    exact writeFile_none (hparent ▸ hdir) (h.mkdirs.files n) data
  · rw [FileTree.put, if_neg (by simp [hm]), Copying.mkdirs_file]

/-- **The loop of copies.** Every record of the list gets its file to its path, if the paths of the
records differ. -/
theorem copyAssets_spec (env : Environment) (hdigest : ∀ d, IsDigest (sha256 d))
    (hdest : NewDir t dest)
    {l : List AssetRecord} (hfound : ∀ r ∈ l, Found t sha256 r)
    (hpaths : (l.map (·.packagePath)).Nodup) (k : ℕ) (h : Copying t t' dest) :
    ∃ after, forEach (copyAsset env none dest) (l.zipIdx k) t' = (after, true) ∧
      (∀ n, (∀ r ∈ l, r.packagePath ≠ some (relStr [assetsDir, n])) →
        after (dest ++ [assetsDir, n]) = t' (dest ++ [assetsDir, n])) ∧
      ∀ r ∈ l, ∃ n data, r.packagePath = some (relStr [assetsDir, n]) ∧
        r.sha256 = some (sha256 data) ∧ after (dest ++ [assetsDir, n]) = some (.file data) := by
  induction l generalizing k t' with
  | nil => exact ⟨t', rfl, fun _ _ => rfl, nofun⟩
  | cons r l ih =>
    rw [List.map_cons, List.nodup_cons] at hpaths
    obtain ⟨file, data, hdata, hsha, -, hpath, hcopied⟩ := copied_of_found
      (hfound r List.mem_cons_self)
    rw [packagePathOf_eq _ (hdigest data)] at hpath
    obtain ⟨t₁, hcopy, hcopying, hfile, hother⟩ :=
      copyAsset_spec env hdigest hdest h hdata hcopied k
    obtain ⟨after, hloop, hsame, hstored⟩ :=
      ih (fun r' hr' => hfound r' (List.mem_cons_of_mem r hr')) hpaths.2 (k + 1) hcopying
    refine ⟨after, ?_, fun n hn => ?_, ?_⟩
    · rw [List.zipIdx_cons, forEach, andThen_eq hcopy, hloop]
    · rw [hsame n fun r' hr' => hn r' (List.mem_cons_of_mem r hr'), hother n]
      rintro rfl
      exact hn r List.mem_cons_self hpath
    · intro r' hr'
      obtain rfl | hr' := List.mem_cons.1 hr'
      · refine ⟨_, data, hpath, hsha, ?_⟩
        rw [hsame _ fun r'' hr'' heq => hpaths.1 ?_, hfile]
        rw [hpath, ← heq]
        exact List.mem_map_of_mem hr''
      · exact hstored r' hr'

/-! ## When remapping is complete and unambiguous -/

section

variable {packageId sceneName camera : String} {frameStart frameEnd : ℤ}
  {self : PhysicalAssetResolver} {closureIds : PySet String} {nodes : List GraphNode} {base : Path}

/-- A record of the plan that is resolved is a record of the resolver with the path of the first
record with its hash. -/
theorem Records.mem_allAssets (hrecords : Records t sha256 records) :
    r ∈ (createPlan records packageId sceneName camera frameStart frameEnd).allAssets ∧
      r.status = .resolved ↔
    ∃ r₀ ∈ records, ∃ h c, HasHash h r₀ ∧ canonical records h = some c ∧
      r = { r₀ with packagePath := c.packagePath } := by
  rw [hrecords.allAssets_createPlan, List.mem_map]
  constructor
  · rintro ⟨⟨r₀, hr₀, rfl⟩, hres⟩
    have hres₀ : r₀.status = .resolved := by
      by_contra hne
      rw [placed, if_pos hne] at hres
      exact hne hres
    obtain ⟨h, c, hhash, hc⟩ := hrecords.hash_of_resolved hr₀ hres₀
    exact ⟨r₀, hr₀, h, c, hhash, hc, placed_of_hash hhash hc⟩
  · rintro ⟨r₀, hr₀, h, c, hhash, hc, rfl⟩
    exact ⟨⟨r₀, hr₀, placed_of_hash hhash hc⟩, hhash.1⟩

theorem content_of_found (cwd : Path) (hr : Found t sha256 r) :
    ∃ data, content t cwd r = some data ∧ r.sha256 = some (sha256 data) := by
  obtain ⟨file, data, hdata, hsha, hsource, -⟩ := copied_of_found hr
  refine ⟨data, ?_, hsha⟩
  rw [content, hsource, Option.bind_some, resolvePath_pathStr, hdata]

/-- Files with one hash have one content. -/
def InjectiveOn (sha256 : Bytes → String) (t : FileTree PathName Bytes) : Prop :=
  ∀ p q d e, t.data? p = some d → t.data? q = some e → sha256 d = sha256 e → d = e

theorem content_eq_of_hash (hinj : InjectiveOn sha256 t) {r₁ r₂ : AssetRecord}
    (h₁ : Found t sha256 r₁) (h₂ : Found t sha256 r₂) (hsha : r₁.sha256 = r₂.sha256) :
    content t cwd r₁ = content t cwd r₂ := by
  obtain ⟨f₁, d₁, hd₁, hs₁, hp₁, -⟩ := copied_of_found h₁
  obtain ⟨f₂, d₂, hd₂, hs₂, hp₂, -⟩ := copied_of_found h₂
  rw [hs₁, hs₂] at hsha
  rw [content, content, hp₁, hp₂, Option.bind_some, Option.bind_some, resolvePath_pathStr,
    resolvePath_pathStr, hd₁, hd₂, hinj f₁ f₂ d₁ d₂ hd₁ hd₂ (Option.some.inj hsha)]

theorem newPath_injective : Function.Injective newPath := fun a b hab => by
  rw [← String.toList_inj] at hab ⊢
  simpa [newPath] using hab

variable (hrecords : Records t sha256 records)

include hrecords

/-- First records that share a path are one. -/
theorem Records.eq_of_packagePath (hremapped : ∀ r₁ ∈ (createPlan records packageId sceneName camera
      frameStart frameEnd).allAssets, ∀ r₂ ∈ (createPlan records packageId sceneName camera
      frameStart frameEnd).allAssets, r₁.status = .resolved → r₂.status = .resolved →
      r₁.packagePath = r₂.packagePath → content t cwd r₁ = content t cwd r₂)
    {c₁ c₂ : AssetRecord} (hc₁ : canonical records h = some c₁)
    (hc₂ : canonical records h' = some c₂) (hpath : c₁.packagePath = c₂.packagePath) : c₁ = c₂ := by
  have hplan {h : String} {c : AssetRecord} (hc : canonical records h = some c) :
      c ∈ (createPlan records packageId sceneName camera frameStart frameEnd).allAssets ∧
        c.status = .resolved := by
    obtain ⟨hmem, hhash⟩ := hasHash_of_canonical hc
    exact hrecords.mem_allAssets.2 ⟨c, hmem, h, c, hhash, hc, rfl⟩
  have hcontent := hremapped c₁ (hplan hc₁).1 c₂ (hplan hc₂).1 (hplan hc₁).2 (hplan hc₂).2 hpath
  obtain ⟨hhash₁, hfound₁⟩ := hrecords.found_canonical hc₁
  obtain ⟨hhash₂, hfound₂⟩ := hrecords.found_canonical hc₂
  obtain ⟨d₁, hd₁, hs₁⟩ := content_of_found cwd hfound₁
  obtain ⟨d₂, hd₂, hs₂⟩ := content_of_found cwd hfound₂
  rw [hd₁, hd₂] at hcontent
  have hsha : c₁.sha256 = c₂.sha256 := by rw [hs₁, hs₂, Option.some.inj hcontent]
  have hh : h = h' := Option.some.inj ((hhash₁.2.symm.trans hsha).trans hhash₂.2)
  subst hh
  exact Option.some.inj (hc₁.symm.trans hc₂)

theorem Records.copyAssets_plan (env : Environment) (hdigest : ∀ d, IsDigest (sha256 d))
    (hdest : NewDir t dest) (hpaths : ∀ h₁ h₂ c₁ c₂, canonical records h₁ = some c₁ →
      canonical records h₂ = some c₂ → c₁ ≠ c₂ → c₁.packagePath ≠ c₂.packagePath) :
    ∃ after, copyAssets env none (createPlan records packageId sceneName camera frameStart frameEnd)
        dest (t.put dest .dir) = (after, true) ∧
      ∀ h c, canonical records h = some c → ∃ package data, c.packagePath = some package ∧
        c.sha256 = some (sha256 data) ∧ after.data? (resolvePath dest package) = some data := by
  generalize hplan : createPlan records packageId sceneName camera frameStart frameEnd = plan
  have hresolved : ∀ r ∈ plan.deduplicatedAssets, r ∈ records ∧ r.status = .resolved := by
    intro r hr
    rw [← hplan] at hr
    exact ⟨hrecords.subset_deduplicatedAssets hr, hrecords.resolved_deduplicatedAssets hr⟩
  have hcanonical : ∀ r ∈ plan.deduplicatedAssets, ∃ h, canonical records h = some r := by
    intro r hr
    obtain ⟨hmem, hres⟩ := hresolved r hr
    obtain ⟨h, c, hhash, -⟩ := hrecords.hash_of_resolved hmem hres
    rw [← hplan] at hr
    exact ⟨h, (hrecords.mem_deduplicatedAssets hhash).1 hr⟩
  have hnodup : (plan.deduplicatedAssets.map (·.packagePath)).Nodup := by
    refine List.Nodup.map_on (fun c₁ h₁ c₂ h₂ heq => ?_) (hplan ▸ hrecords.nodup_deduplicatedAssets)
    obtain ⟨k₁, hk₁⟩ := hcanonical c₁ h₁
    obtain ⟨k₂, hk₂⟩ := hcanonical c₂ h₂
    by_contra hne
    exact hpaths k₁ k₂ c₁ c₂ hk₁ hk₂ hne heq
  obtain ⟨after, hloop, -, hstored⟩ := copyAssets_spec env hdigest hdest
    (fun r hr => hrecords.found r (hresolved r hr).1 (hresolved r hr).2) hnodup 0 hdest.copying
  refine ⟨after, hloop, fun h c hc => ?_⟩
  obtain ⟨hhash, -⟩ := hrecords.found_canonical hc
  have hmem : c ∈ plan.deduplicatedAssets := hplan ▸ (hrecords.mem_deduplicatedAssets hhash).2 hc
  obtain ⟨n, data, hpath, hsha, hfile⟩ := hstored c hmem
  exact ⟨_, data, hpath, hsha, by rw [resolvePath_relStr, data?, hfile]⟩

omit hrecords in
/-- **When remapping is complete and unambiguous.** -/
theorem remapped_iff (env : Environment) (hdigest : ∀ d, IsDigest (sha256 d))
    (hinj : InjectiveOn sha256 t) (hdest : NewDir t dest)
    (hresolve : self.resolve t sha256 closureIds nodes base = .ok records) :
    Remapped sha256 env t dest
        (createPlan records packageId sceneName camera frameStart frameEnd) ↔
      Unambiguous env.cwd records := by
  have hrecords := resolve_spec hresolve
  constructor
  · intro hremapped
    have heq {h h' : String} {c₁ c₂ : AssetRecord} (hc₁ : canonical records h = some c₁)
        (hc₂ : canonical records h' = some c₂) (hpath : c₁.packagePath = c₂.packagePath) :
        c₁ = c₂ := hrecords.eq_of_packagePath hremapped.distinct hc₁ hc₂ hpath
    have hmapped {h : String} {c r : AssetRecord} (hc : canonical records h = some c)
        (hr : r ∈ records) (hhash : HasHash h r) {k : String} (hk : k ∈ recordKeys env.cwd r) :
        (pathMapping env.cwd (createPlan records packageId sceneName camera frameStart
          frameEnd)).get? k = c.packagePath.map newPath := by
      have hmem : { r with packagePath := c.packagePath } ∈ (createPlan records packageId sceneName
          camera frameStart frameEnd).allAssets ∧ r.status = .resolved :=
        hrecords.mem_allAssets.2 ⟨r, hr, h, c, hhash, hc, rfl⟩
      exact hremapped.mapped _ hmem.1 hmem.2 k hk
    refine ⟨fun h₁ h₂ c₁ c₂ hc₁ hc₂ hne hpath => hne (heq hc₁ hc₂ hpath), ?_, ?_⟩
    · intro h₁ h₂ c₁ c₂ hc₁ hc₂ hne k hk₁ hk₂
      obtain ⟨hm₁, hh₁⟩ := hasHash_of_canonical hc₁
      obtain ⟨hm₂, hh₂⟩ := hasHash_of_canonical hc₂
      have hsame := (hmapped hc₁ hm₁ hh₁ hk₁).symm.trans (hmapped hc₂ hm₂ hh₂ hk₂)
      exact hne (heq hc₁ hc₂ (Option.map_injective newPath_injective hsame))
    · intro h c hc r hr hhash k hk
      obtain ⟨file, data, -, -, -, hpath, -⟩ := copied_of_found (hrecords.found_canonical hc).2
      have hget := hmapped hc hr hhash hk
      rw [hpath, Option.map_some] at hget
      obtain ⟨h', c', hc', hk', hv⟩ := hrecords.entry_of_mapping hget
      have hpath' : c'.packagePath = c.packagePath :=
        Option.map_injective newPath_injective (by rw [hv, hpath]; rfl)
      exact heq hc' hc hpath' ▸ hk'
  · intro hun
    obtain ⟨after, hcopy, hstored⟩ := hrecords.copyAssets_plan env hdigest hdest hun.paths
    refine ⟨?_, by rw [hcopy], ?_, ?_⟩
    · intro r₁ hr₁ r₂ hr₂ hres₁ hres₂ hpath
      obtain ⟨r₁, hmem₁, h₁, c₁, hhash₁, hc₁, rfl⟩ := hrecords.mem_allAssets.1 ⟨hr₁, hres₁⟩
      obtain ⟨r₂, hmem₂, h₂, c₂, hhash₂, hc₂, rfl⟩ := hrecords.mem_allAssets.1 ⟨hr₂, hres₂⟩
      have hc : c₁ = c₂ := by_contra fun hne => hun.paths h₁ h₂ c₁ c₂ hc₁ hc₂ hne hpath
      have hsha : r₁.sha256 = r₂.sha256 := by
        have hboth := (hasHash_of_canonical hc₁).2.2.symm.trans
          (hc ▸ (hasHash_of_canonical hc₂).2.2)
        rw [hhash₁.2, hhash₂.2, hboth]
      have hcontent : content t env.cwd r₁ = content t env.cwd r₂ :=
        content_eq_of_hash hinj (hrecords.found r₁ hmem₁ hres₁) (hrecords.found r₂ hmem₂ hres₂) hsha
      exact hcontent
    · intro r hr hres
      obtain ⟨r, hmem, h, c, hhash, hc, rfl⟩ := hrecords.mem_allAssets.1 ⟨hr, hres⟩
      obtain ⟨package, data, hpath, hsha, hfile⟩ := hstored h c hc
      refine ⟨package, data, hpath, ?_, by rw [hcopy]; exact hfile⟩
      rw [← hsha]
      exact hhash.2.trans (hasHash_of_canonical hc).2.2.symm
    · intro r hr hres k hk
      obtain ⟨r, hmem, h, c, hhash, hc, rfl⟩ := hrecords.mem_allAssets.1 ⟨hr, hres⟩
      have hkey : k ∈ recordKeys env.cwd c := hun.duplicates h c hc r hmem hhash k hk
      have hget : (pathMapping env.cwd (createPlan records packageId sceneName camera frameStart
          frameEnd)).get? k = c.packagePath.map newPath :=
        hrecords.mapping_of_entry hc hkey fun h' c' hc' hne hk' =>
          hun.keys h' h c' c hc' hc hne k hk' hkey
      exact hget

end

/-! ### A sample -/

namespace Remapping

/-- A file name of the sample. -/
def sampleName (c : Char) (h : c ≠ '/') : PathName where
  text := String.ofList [c, 'x']
  ne_empty := by simp [← String.toList_inj]
  ne_dot := by simp [← String.toList_inj]
  ne_up := by simp [← String.toList_inj]
  no_slash := by simp [Ne.symm h]

/-- Two files with the same content. -/
def sampleFiles : FileTree PathName Bytes := fun p =>
  if p = [] then some .dir
  else if p = [sampleName 'a' (by decide)] ∨ p = [sampleName 'b' (by decide)] then some (.file [1])
  else none

/-- A hash of the sample. -/
def sampleHash (_ : Bytes) : String := String.ofList (List.replicate 64 '0')

theorem isDigest_sampleHash (d : Bytes) : IsDigest (sampleHash d) := by
  unfold IsDigest sampleHash
  rw [String.toList_ofList]
  refine ⟨List.length_replicate, fun c hc => ?_⟩
  rw [List.eq_of_mem_replicate hc]
  rfl

/-- The environment of the sample. -/
def sampleEnvironment : Environment where
  tempName := sampleName 'p' (by decide)
  manifestText := fun _ => []
  mappingText := fun _ => []
  blender := fun _ _ => (none, true)

/-- The records of the two files. -/
def sampleRecords : List AssetRecord :=
  [resolvedRecord sampleHash "image:ax" [sampleName 'a' (by decide)] "ax" [1],
    resolvedRecord sampleHash "image:bx" [sampleName 'b' (by decide)] "bx" [1]]

theorem resolve_sample : PhysicalAssetResolver.resolve sampleFiles sampleHash {}
    (.ofList ["image:ax", "image:bx"]) [] [] = .ok sampleRecords := by
  decide +kernel

theorem data?_sampleFiles {p : Path} {d : Bytes} (h : sampleFiles.data? p = some d) : d = [1] := by
  by_cases hroot : p = []
  · simp [sampleFiles, data?, hroot] at h
  · by_cases hfile : p = [sampleName 'a' (by decide)] ∨ p = [sampleName 'b' (by decide)]
    · simpa [sampleFiles, data?, hroot, hfile] using h.symm
    · simp [sampleFiles, data?, hroot, hfile] at h

theorem newDir_sample : NewDir sampleFiles [sampleName 'p' (by decide)] where
  absent q := by
    have ha : sampleName 'p' (by decide) ≠ sampleName 'a' (by decide) := by decide
    have hb : sampleName 'p' (by decide) ≠ sampleName 'b' (by decide) := by decide
    simp [sampleFiles, ha, hb]
  parents q hq hne := by
    cases q with
    | nil => rfl
    | cons n q =>
      obtain ⟨rfl, hnil⟩ := List.cons_prefix_cons.1 hq
      exact absurd (by rw [List.prefix_nil.1 hnil]) hne

theorem remapped_sample :
    Remapped sampleHash sampleEnvironment sampleFiles [sampleName 'p' (by decide)]
        (createPlan sampleRecords "p" "scene" "" 1 24) ↔
      Unambiguous sampleEnvironment.cwd sampleRecords :=
  remapped_iff sampleEnvironment isDigest_sampleHash
    (fun _ _ _ _ hd he _ => (data?_sampleFiles hd).trans (data?_sampleFiles he).symm) newDir_sample
    resolve_sample

/-- A duplicate has keys that are not mapped. -/
theorem duplicate_not_mapped : ∃ records,
    PhysicalAssetResolver.resolve sampleFiles sampleHash {} (.ofList ["image:ax", "image:bx"]) []
      [] =
      .ok records ∧
    ¬ Remapped sampleHash sampleEnvironment sampleFiles [sampleName 'p' (by decide)]
      (createPlan records "p" "scene" "" 1 24) := by
  refine ⟨sampleRecords, resolve_sample, fun h => ?_⟩
  have hmapped :=
    h.mapped { resolvedRecord sampleHash "image:bx" [sampleName 'b' (by decide)] "bx" [1]
    with packagePath := some (packagePathOf (sampleHash [1]) [sampleName 'a' (by decide)]) }
    (by decide +kernel) rfl "bx" (by decide +kernel)
  exact absurd hmapped (by decide +kernel)

end Remapping

end Aidars.Packaging
