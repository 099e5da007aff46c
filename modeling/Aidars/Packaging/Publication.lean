import Aidars.Packaging.Builder

/-!
# Publication of packages

`buildAndValidate` should publish all or nothing: if it returns, the output directory is the package
that was verified, and if it raises, the output directory is as it was.

The directory is replaced by two renames with a rollback, and the removal of the former content
comes after them, where nothing rolls back. `allOrNothing_iff` says exactly when publication is all
or nothing. `below_result` says that it touches nothing else.
-/

namespace Aidars.Packaging

open FileTree Script

section

variable {fault : Option Fault} {t t' : FileTree PathName Bytes} {p q r tmp final backup : Path}
  {call : Call}

/-! ## Calls -/

theorem faultAt_eq_none_of_ne {call' : Call} (h : (faultAt fault call).isSome = true)
    (hne : call ≠ call') : faultAt fault call' = none := by
  cases fault with
  | none => rfl
  | some f =>
    have hcall : f.call = call := by simpa [faultAt, Option.filter] using h
    simp [faultAt, Option.filter, hcall, hne]

theorem renameTo_eq (hdir : t.isDir q.dropLast = true) (hq : t.exists? q = false)
    (failed : Option Fault) :
    renameTo failed p q t = if failed.isSome then (t, false) else (t.rename p q, true) := by
  cases failed <;> simp [renameTo, hdir, hq]

theorem rmtree_eq_of_not_isDir (h : t.isDir p = false) (failed : Option Fault) :
    rmtree failed p t = (t, false) := by
  simp [rmtree, h]

theorem rmtree_eq_of_isDir (h : t.isDir p = true) (failed : Option Fault) :
    rmtree failed p t = (t.remove p (failed.elim (fun _ => false) Fault.kept), failed.isNone) := by
  simp [rmtree, h]

/-- A removal changes nothing at a path that does not lead through what it removes. -/
theorem rmtree_apply_of_outside (h : ¬ p <+: q) (failed : Option Fault) :
    (rmtree failed p t).1 q = t q := by
  unfold rmtree
  split_ifs
  · rfl
  · exact remove_apply_of_outside _ h

/-- A removal changes nothing beside what it removes. -/
theorem keeps_rmtree (failed : Option Fault) (h : Apart p q) :
    (rmtree failed p : Script PathName Bytes).Keeps q := by
  intro t
  unfold rmtree
  split_ifs
  · rfl
  · exact below_remove_of_apart _ h

theorem keeps_removeDir (h : Apart p q) : (removeDir fault call p).Keeps q := by
  intro t
  unfold removeDir
  split_ifs
  · exact keeps_rmtree _ h t
  · rfl

theorem removeDir_apply_of_outside (h : ¬ p <+: q) : (removeDir fault call p t).1 q = t q := by
  unfold removeDir
  split_ifs
  · exact rmtree_apply_of_outside h _
  · rfl

/-- A removal that completes leaves nothing. -/
theorem exists_removeDir (h : (removeDir fault call p t).2 = true) :
    (removeDir fault call p t).1.exists? p = false := by
  by_cases hexists : t.exists? p = true
  · rw [removeDir, if_pos hexists] at h ⊢
    by_cases hdir : t.isDir p = true
    · rw [rmtree_eq_of_isDir hdir] at h ⊢
      have hfault : faultAt fault call = none := by simpa using h
      simp [hfault, exists?, remove_apply_self]
    · rw [rmtree_eq_of_not_isDir (by simpa using hdir)] at h
      cases h
  · rw [removeDir, if_neg hexists]
    simpa using hexists

theorem isDir_congr (h : t p = t' p) : t.isDir p = t'.isDir p := by
  rw [isDir, isDir, h]

theorem exists_congr (h : t p = t' p) : t.exists? p = t'.exists? p := by
  rw [exists?, exists?, h]

/-! ## Moving the package in -/

/-- Where the package, the output and the backup are. -/
structure Layout (tmp final backup : Path) : Prop where
  tmp_final : Apart tmp final
  tmp_backup : Apart tmp backup
  final_backup : Apart final backup
  same_parent : backup.dropLast = final.dropLast
  parent : ¬ final <+: final.dropLast
  tmp_parent : ¬ tmp <+: final.dropLast
  backup_parent : ¬ backup <+: final.dropLast

/-- The new package gets to the output path. -/
def MovesIn (fault : Option Fault) (final backup : Path) (t : FileTree PathName Bytes) : Prop :=
  t.isDir final.dropLast = true ∧ faultAt fault .renameToFinal = none ∧
    (t.exists? final = true → (removeDir fault .removeLeftover backup t).2 = true ∧
      faultAt fault .renameToBackup = none)

/-- The former output can be removed once it was moved aside. -/
def Removable (fault : Option Fault) (final : Path) (t : FileTree PathName Bytes) : Prop :=
  t.exists? final = true → t.isDir final = true ∧ faultAt fault .removeBackup = none

/-- What the swap does after the former output was moved aside. -/
theorem moveIn_spec (fault : Option Fault) (tmp backup : Path)
    (hdir : t.isDir final.dropLast = true)
    (hfinal : t.below final = fun _ => none) :
    (faultAt fault .renameToFinal = none ∧ moveIn fault tmp final backup t =
      (t.rename tmp final, true)) ∨
    ((faultAt fault .renameToFinal).isSome = true ∧ moveIn fault tmp final backup t =
      (t.rename backup final, false)) := by
  have hnone : t.exists? final = false := by
    have hroot := congrFun hfinal []
    simpa [FileTree.exists?, FileTree.below] using hroot
  rw [moveIn, renameTo_eq hdir hnone]
  cases hfault : faultAt fault .renameToFinal with
  | none => exact .inl ⟨rfl, rfl⟩
  | some f =>
    have hrollback : faultAt fault .rollback = none :=
      faultAt_eq_none_of_ne (by rw [hfault]; rfl) (by decide)
    refine .inr ⟨rfl, ?_⟩
    simp [renameTo_eq hdir hnone, hrollback]

/-- The output after the former one was moved aside, and what is known of the rest. -/
theorem rename_aside (hl : Layout tmp final backup) (hdir : t.isDir final.dropLast = true) :
    (t.rename final backup).isDir final.dropLast = true ∧
    (t.rename final backup).below final = (fun _ => none) ∧
    (t.rename final backup).below backup = t.below final ∧
    (t.rename final backup).below tmp = t.below tmp := by
  refine ⟨?_, below_rename_source hl.final_backup, below_rename, ?_⟩
  · rw [isDir_congr (rename_apply_of_outside hl.parent hl.backup_parent), hdir]
  · exact below_rename_of_apart hl.tmp_final.symm hl.tmp_backup.symm

/-- Publication when there is nothing at the output path. -/
theorem publish_of_absent (h : t.exists? final = false) :
    publish fault tmp final backup t = renameTo (faultAt fault .renameToFinal) tmp final t := by
  simp [publish, h]

/-- Publication when the former output could be moved aside. -/
theorem publish_of_aside (hl : Layout tmp final backup) (h : t.exists? final = true)
    (hdir : t.isDir final.dropLast = true)
    (hleft : (removeDir fault .removeLeftover backup t).2 = true)
    (hfault : faultAt fault .renameToBackup = none) :
    publish fault tmp final backup t =
      (moveIn fault tmp final backup).andThen (rmtree (faultAt fault .removeBackup) backup)
        ((removeDir fault .removeLeftover backup t).1.rename final backup) := by
  have hgone := exists_removeDir hleft
  have hdir' : (removeDir fault .removeLeftover backup t).1.isDir backup.dropLast = true := by
    rw [hl.same_parent, isDir_congr (removeDir_apply_of_outside hl.backup_parent), hdir]
  rw [publish, if_pos h, andThen_eq (Prod.ext rfl hleft), andThen_eq]
  rw [renameTo_eq hdir' hgone, hfault]
  rfl

/-- Publication when the former output could not be moved aside. -/
theorem publish_of_not_aside (hl : Layout tmp final backup) (h : t.exists? final = true)
    (hnot : ¬ (t.isDir final.dropLast = true ∧
      (removeDir fault .removeLeftover backup t).2 = true ∧
      faultAt fault .renameToBackup = none)) :
    publish fault tmp final backup t = ((removeDir fault .removeLeftover backup t).1, false) := by
  rw [publish, if_pos h]
  cases hleft : (removeDir fault .removeLeftover backup t).2 with
  | false => rw [andThen_eq_of_false (Prod.ext rfl hleft)]
  | true =>
    rw [andThen_eq (Prod.ext rfl hleft), andThen_eq_of_false]
    have hdir : (removeDir fault .removeLeftover backup t).1.isDir final.dropLast =
        t.isDir final.dropLast := isDir_congr (removeDir_apply_of_outside hl.backup_parent)
    unfold renameTo
    rw [hl.same_parent, hdir]
    refine if_pos ?_
    by_contra hfail
    simp only [Bool.or_eq_true, not_or, Bool.not_eq_true, Option.isSome_eq_false_iff,
      Option.isNone_iff_eq_none, Bool.not_eq_false'] at hfail
    exact hnot ⟨hfail.1.2, hleft, hfail.1.1⟩

theorem node_congr {t₁ t₂ : FileTree PathName Bytes} (h : t₁.below p = t₂.below q) :
    t₁ p = t₂ q := by
  have hroot := congrFun h []
  simpa [FileTree.below] using hroot

/-- The last step of a publication: the former output is removed. -/
theorem rmtree_backup (hl : Layout tmp final backup) {t₃ : FileTree PathName Bytes}
    (hfinal : t₃.below final = t.below tmp) (htmp : t₃.exists? tmp = false)
    (hbackup : t₃.below backup = t.below final) (hexists : t.exists? final = true) :
    (rmtree (faultAt fault .removeBackup) backup t₃).1.below final = t.below tmp ∧
    (rmtree (faultAt fault .removeBackup) backup t₃).1.exists? tmp = false ∧
    ((rmtree (faultAt fault .removeBackup) backup t₃).2 = true ↔ Removable fault final t) := by
  have hdir : t₃.isDir backup = t.isDir final := by rw [isDir, isDir, node_congr hbackup]
  refine ⟨?_, ?_, ?_⟩
  · rw [keeps_rmtree _ hl.final_backup.symm, hfinal]
  · rw [exists_congr (rmtree_apply_of_outside hl.tmp_backup.2 _), htmp]
  · rw [rmtree, hdir]
    cases hd : t.isDir final <;> simp [Removable, hexists, hd]

/-- **The package moved in.** The output is the package, and publication completes exactly if the
former output can be removed. -/
theorem publish_of_movesIn (hl : Layout tmp final backup) (h : MovesIn fault final backup t) :
    (publish fault tmp final backup t).1.below final = t.below tmp ∧
    (publish fault tmp final backup t).1.exists? tmp = false ∧
    ((publish fault tmp final backup t).2 = true ↔ Removable fault final t) := by
  obtain ⟨hdir, hfinal, haside⟩ := h
  cases hexists : t.exists? final with
  | false =>
    rw [publish_of_absent hexists, renameTo_eq hdir hexists, hfinal]
    refine ⟨below_rename, ?_, by simp [Removable, hexists]⟩
    have hroot := congrFun (below_rename_source (t := t) hl.tmp_final) []
    simpa [FileTree.exists?, FileTree.below] using hroot
  | true =>
    obtain ⟨hleft, hbackup⟩ := haside hexists
    rw [publish_of_aside hl hexists hdir hleft hbackup]
    generalize hleftover : (removeDir fault .removeLeftover backup t).1 = t₁
    have hkeeps (q : Path) (hq : Apart backup q) : t₁.below q = t.below q := by
      rw [← hleftover, keeps_removeDir hq]
    have hdir₁ : t₁.isDir final.dropLast = true := by
      rw [← hleftover, isDir_congr (removeDir_apply_of_outside hl.backup_parent), hdir]
    obtain ⟨hdir₂, hfinal₂, hbackup₂, htmp₂⟩ := rename_aside hl hdir₁
    obtain ⟨-, hmove⟩ | ⟨hsome, -⟩ := moveIn_spec fault tmp backup hdir₂ hfinal₂
    · rw [andThen_eq hmove]
      refine rmtree_backup hl ?_ ?_ ?_ hexists
      · rw [below_rename, htmp₂, hkeeps tmp hl.tmp_backup.symm]
      · have hroot := congrFun (below_rename_source (t := t₁.rename final backup) hl.tmp_final) []
        simpa [FileTree.exists?, FileTree.below] using hroot
      · rw [below_rename_of_apart hl.tmp_backup hl.final_backup, hbackup₂,
          hkeeps final hl.final_backup.symm]
    · rw [hfinal] at hsome
      cases hsome

/-- **The package not moved in.** Publication stops with the output as it was. -/
theorem publish_of_not_movesIn (hl : Layout tmp final backup)
    (h : ¬ MovesIn fault final backup t) :
    (publish fault tmp final backup t).1.below final = t.below final ∧
    (publish fault tmp final backup t).2 = false := by
  cases hexists : t.exists? final with
  | false =>
    rw [publish_of_absent hexists, renameTo, if_pos]
    · exact ⟨rfl, rfl⟩
    · by_contra hfail
      simp only [Bool.or_eq_true, not_or, Bool.not_eq_true, Option.isSome_eq_false_iff,
        Option.isNone_iff_eq_none, Bool.not_eq_false'] at hfail
      exact h ⟨hfail.1.2, hfail.1.1, fun hex => by rw [hexists] at hex; cases hex⟩
  | true =>
    have hkeeps : (removeDir fault .removeLeftover backup t).1.below final = t.below final :=
      keeps_removeDir hl.final_backup.symm t
    by_cases haside : t.isDir final.dropLast = true ∧
        (removeDir fault .removeLeftover backup t).2 = true ∧ faultAt fault .renameToBackup = none
    · obtain ⟨hdir, hleft, hbackup⟩ := haside
      rw [publish_of_aside hl hexists hdir hleft hbackup]
      generalize hleftover : (removeDir fault .removeLeftover backup t).1 = t₁ at hkeeps
      have hdir₁ : t₁.isDir final.dropLast = true := by
        rw [← hleftover, isDir_congr (removeDir_apply_of_outside hl.backup_parent), hdir]
      obtain ⟨hdir₂, hfinal₂, hbackup₂, -⟩ := rename_aside hl hdir₁
      obtain ⟨hnone, -⟩ | ⟨-, hmove⟩ := moveIn_spec fault tmp backup hdir₂ hfinal₂
      · exact absurd ⟨hdir, hnone, fun _ => ⟨hleft, hbackup⟩⟩ h
      · rw [andThen_eq_of_false hmove]
        exact ⟨by rw [below_rename, hbackup₂, hkeeps], rfl⟩
    · rw [publish_of_not_aside hl hexists haside]
      exact ⟨hkeeps, rfl⟩

/-! ## Packages that keep to their directory -/

/-- The files of a plan lie in the directory that the package is built in. -/
structure Confined (plan : PackagePlan) (dest : Path) : Prop where
  assets : ∀ record ∈ plan.deduplicatedAssets, ∀ source package,
    copied record = some (source, package) →
      dest <+: resolveParent dest package ∧ dest <+: resolvePath dest package
  scene : dest <+: resolveParent (dest ++ [sceneDir]) (scenePath plan) ∧
    dest <+: resolvePath (dest ++ [sceneDir]) (scenePath plan)

variable {env : Environment} {plan : PackagePlan} {dest : Path}

theorem keeps_mkdir (failed : Option Fault) (h : Apart p q) :
    (mkdir failed p : Script PathName Bytes).Keeps q := by
  intro t
  unfold mkdir
  split_ifs
  · rfl
  · exact below_mkdirs h.2

theorem keeps_writeFile (failed : Option Fault) (data : Bytes) (h : Apart p q) :
    (writeFile failed p data).Keeps q := by
  intro t
  unfold writeFile
  split_ifs
  · rfl
  · cases failed with
    | none => exact below_put h.2
    | some f =>
      dsimp only
      cases f.left with
      | none => rfl
      | some left => exact below_put h.2

theorem keeps_copyFile (failed : Option Fault) (source : Path) (h : Apart p q) :
    (copyFile failed source p).Keeps q := by
  intro t
  unfold copyFile
  cases t.data? source with
  | none => rfl
  | some data =>
    dsimp only
    split_ifs
    · rfl
    · have htarget : p <+: copyTarget t source p := by
        unfold copyTarget
        split_ifs
        · exact List.prefix_append _ _
        · exact List.prefix_rfl
      exact keeps_writeFile failed data (h.extend htarget) t

theorem keeps_copyAsset (hplan : Confined plan dest) (h : Apart dest q) {record : AssetRecord}
    (hrecord : record ∈ plan.deduplicatedAssets) (i : ℕ) :
    (copyAsset env fault dest (record, i)).Keeps q := by
  unfold copyAsset
  cases hcopied : copied record with
  | none => exact Script.keeps_pass
  | some paths =>
    obtain ⟨hparent, hpath⟩ := hplan.assets record hrecord paths.1 paths.2 hcopied
    refine (keeps_mkdir _ (h.extend hparent)).andThen fun t => ?_
    split_ifs
    · exact keeps_copyFile _ _ (h.extend hpath) t
    · rfl

theorem keeps_copyAssets (hplan : Confined plan dest) (h : Apart dest q) :
    (copyAssets env fault plan dest).Keeps q := by
  refine Script.Keeps.forEach fun recordAt hmem => ?_
  exact keeps_copyAsset hplan h (List.fst_mem_of_mem_zipIdx hmem) recordAt.2

theorem keeps_runBlender {scene : Path} (mapping : Dict String String) (h : Apart scene q) :
    (runBlender env fault scene mapping).Keeps q := by
  intro t
  unfold runBlender
  split
  · rfl
  · rfl
  · rename_i data _ _
    dsimp only
    cases (env.blender data mapping).1 with
    | none => rfl
    | some saved => exact below_put h.2

theorem keeps_copyScene (hplan : Confined plan dest) (h : Apart dest q) (sceneSource : String)
    (useBlender : Bool) : (copyScene env fault plan dest sceneSource useBlender).Keeps q := by
  intro t
  unfold copyScene
  split_ifs with hscene hblender
  · refine (keeps_mkdir _ (h.extend hplan.scene.1)).andThen
      ((keeps_copyFile _ _ (h.extend hplan.scene.2)).andThen ?_) t
    exact (keeps_writeFile _ _ (h.extend (List.prefix_append _ _))).andThen
      (keeps_runBlender _ (h.extend hplan.scene.2))
  · exact (keeps_mkdir _ (h.extend hplan.scene.1)).andThen
      ((keeps_copyFile _ _ (h.extend hplan.scene.2)).andThen Script.keeps_pass) t
  · rfl

/-- **Building touches nothing outside the package** when the files of the plan lie in it. -/
theorem keeps_buildPackage (hplan : Confined plan dest) (h : Apart dest q) (sceneSource : String)
    (useBlender : Bool) : (buildPackage env fault plan dest sceneSource useBlender).Keeps q :=
  (keeps_mkdir _ h).andThen <| (keeps_copyAssets hplan h).andThen <|
    (keeps_copyScene hplan h sceneSource useBlender).andThen <|
      keeps_writeFile _ _ (h.extend (List.prefix_append _ _))

theorem keeps_renameTo (failed : Option Fault) {r : Path} (hp : Apart p r) (hq : Apart q r) :
    (renameTo failed p q : Script PathName Bytes).Keeps r := by
  intro t
  unfold renameTo
  split_ifs
  · rfl
  · exact below_rename_of_apart hp hq

theorem keeps_publish (htmp : Apart tmp q) (hfinal : Apart final q) (hbackup : Apart backup q) :
    (publish fault tmp final backup).Keeps q := by
  have hmove : (moveIn fault tmp final backup).Keeps q := by
    intro t
    unfold moveIn
    dsimp only
    split_ifs
    · exact keeps_renameTo _ htmp hfinal t
    · rw [keeps_renameTo _ hbackup hfinal, keeps_renameTo _ htmp hfinal]
  intro t
  unfold publish
  split_ifs
  · exact ((keeps_removeDir hbackup).andThen <| (keeps_renameTo _ hfinal hbackup).andThen <|
      hmove.andThen (keeps_rmtree _ hbackup)) t
  · exact keeps_renameTo _ htmp hfinal t

end

/-! ## All or nothing -/

theorem ne_backupName (processId : ℕ) (name : PathName) : name ≠ backupName processId name := by
  intro h
  have hlen := congrArg (fun n => n.text.length) h
  simp [backupName, PathName.append] at hlen

/-- The arguments of a publication, and the files before it. -/
structure Publication where
  env : Environment
  fault : Option Fault := none
  plan : PackagePlan
  parent : Path
  name : PathName
  validate : FileTree PathName Bytes → Path → PackageIntegrityReport
  sceneSource : String := ""
  useBlender : Bool := false
  files : FileTree PathName Bytes

namespace Publication

variable (c : Publication)

/-- The temporary directory. -/
def tmp : Path := temporaryDir c.env c.files c.parent

/-- The output directory. -/
def final : Path := c.parent ++ [c.name]

/-- Where the former output is moved. -/
def backup : Path := c.parent ++ [backupName c.env.processId c.name]

/-- The files after the call, and its answer. -/
def result : FileTree PathName Bytes × Option PackageIntegrityReport :=
  buildAndValidate c.env c.fault c.plan c.parent c.name c.validate c.sceneSource c.useBlender
    c.files

/-- The files when the build stopped, and whether it completed. -/
def built : FileTree PathName Bytes × Bool :=
  buildPackage c.env c.fault c.plan c.tmp c.sceneSource c.useBlender (c.files.put c.tmp .dir)

/-- The output directory is the verified package if the call returns, and as it was if it raises. -/
def AllOrNothing : Prop :=
  match c.result.2 with
  | some report => c.result.1.below c.final = c.built.1.below c.tmp ∧ c.built.2 = true ∧
      report = c.validate c.built.1 c.tmp ∧ report.verified = true
  | none => c.result.1.below c.final = c.files.below c.final

/-- The temporary directory is made. -/
def Started : Prop := faultAt c.fault .mkdtemp = none ∧ c.files.isDir c.tmp.dropLast = true

/-- The build completes and the validator verifies the package. -/
def Verified : Prop :=
  c.built.2 = true ∧ faultAt c.fault .validate = none ∧
    (c.validate c.built.1 c.tmp).verified = true

/-- The package is verified and gets to the output path. -/
def Replaces : Prop := c.Verified ∧ MovesIn c.fault c.final c.backup c.built.1

/-- If the package replaces the output, the former one can be removed or is the same; if it does
not, building it left the output as it was. -/
def Safe : Prop :=
  c.Started →
    (c.Replaces → Removable c.fault c.final c.built.1 ∨
      c.built.1.below c.tmp = c.files.below c.final) ∧
    (¬ c.Replaces → c.built.1.below c.final = c.files.below c.final)

/-- The temporary directory is a new one, beside the output and its backup. -/
def Fresh : Prop := Apart c.tmp c.final ∧ Apart c.tmp c.backup

instance : Decidable c.Fresh := inferInstanceAs (Decidable (_ ∧ _))

variable {c}

theorem Fresh.layout (h : c.Fresh) : Layout c.tmp c.final c.backup where
  tmp_final := h.1
  tmp_backup := h.2
  final_backup := apart_concat (ne_backupName c.env.processId c.name)
  same_parent := by simp [backup, final]
  parent := by
    rw [final, List.dropLast_concat]
    exact concat_not_leads c.parent c.name
  tmp_parent hpre := by
    rw [final, List.dropLast_concat] at hpre
    exact h.1.1 (hpre.trans (List.prefix_append _ _))
  backup_parent := by
    rw [final, List.dropLast_concat]
    exact concat_not_leads c.parent _

/-- A call without a temporary directory changes nothing. -/
theorem result_of_not_started (h : ¬ c.Started) : c.result = (c.files, none) := by
  rw [result, buildAndValidate, if_pos]
  by_contra hfail
  simp only [Bool.or_eq_true, not_or, Bool.not_eq_true, Option.isSome_eq_false_iff,
    Option.isNone_iff_eq_none, Bool.not_eq_false'] at hfail
  exact h hfail

theorem result_of_not_verified (h : c.Started) (hv : ¬ c.Verified) :
    c.result = ((removeDir c.fault .removeTemporary c.tmp c.built.1).1, none) := by
  have hcond : (c.built.2 && (faultAt c.fault .validate).isNone &&
      (c.validate c.built.1 c.tmp).verified) = false := by
    rw [Bool.eq_false_iff]
    intro hall
    simp only [Bool.and_eq_true, Option.isNone_iff_eq_none] at hall
    exact hv ⟨hall.1.1, hall.1.2, hall.2⟩
  have hstart : ((faultAt c.fault .mkdtemp).isSome || !c.files.isDir c.tmp.dropLast) = false := by
    simp [h.1, h.2]
  unfold result buildAndValidate
  simp only [tmp, built] at hcond hstart ⊢
  simp [hcond, hstart]

/-- A call whose package is verified publishes it, and removes the temporary directory. -/
theorem result_of_verified (h : c.Started) (hv : c.Verified) :
    c.result =
      (let published := publish c.fault c.tmp c.final c.backup c.built.1
       let cleaned := removeDir c.fault .removeTemporary c.tmp published.1
       (cleaned.1,
         if published.2 && cleaned.2 then some (c.validate c.built.1 c.tmp) else none)) := by
  have hcond : (c.built.2 && (faultAt c.fault .validate).isNone &&
      (c.validate c.built.1 c.tmp).verified) = true := by
    simp [hv.1, hv.2.1, hv.2.2]
  have hstart : ((faultAt c.fault .mkdtemp).isSome || !c.files.isDir c.tmp.dropLast) = false := by
    simp [h.1, h.2]
  unfold result buildAndValidate
  simp only [tmp, built, final, backup] at hcond hstart ⊢
  simp [hcond, hstart]

/-- A call that raises is all or nothing exactly if the output is as it was. -/
theorem allOrNothing_of_none (h : c.result.2 = none) :
    c.AllOrNothing ↔ c.result.1.below c.final = c.files.below c.final := by
  rw [AllOrNothing, h]

theorem removeDir_of_absent {fault : Option Fault} {call : Call} {p : Path}
    {t : FileTree PathName Bytes} (h : t.exists? p = false) :
      removeDir fault call p t = (t, true) := by
  simp [removeDir, h]

/-- A call that replaces the output returns if the former one can be removed, and raises if not. -/
theorem result_of_replaces (hl : Layout c.tmp c.final c.backup) (hstart : c.Started)
    (h : c.Replaces) : c.result.1.below c.final = c.built.1.below c.tmp ∧
      (Removable c.fault c.final c.built.1 → c.result.2 = some (c.validate c.built.1 c.tmp)) ∧
      (¬ Removable c.fault c.final c.built.1 → c.result.2 = none) := by
  obtain ⟨hfinal, htmp, hok⟩ := publish_of_movesIn hl h.2
  rw [result_of_verified hstart h.1]
  dsimp only
  rw [removeDir_of_absent htmp]
  refine ⟨hfinal, fun hrem => ?_, fun hrem => ?_⟩
  · simp [hok.2 hrem]
  · simp [Bool.eq_false_iff.2 fun h => hrem (hok.1 h)]

/-- A call that does not replace the output raises, with the output as the build left it. -/
theorem result_of_not_replaces (hl : Layout c.tmp c.final c.backup) (hstart : c.Started)
    (h : ¬ c.Replaces) : c.result.1.below c.final = c.built.1.below c.final ∧
      c.result.2 = none := by
  have hclean (t : FileTree PathName Bytes) :
      (removeDir c.fault .removeTemporary c.tmp t).1.below c.final = t.below c.final :=
    keeps_removeDir hl.tmp_final t
  by_cases hv : c.Verified
  · obtain ⟨hfinal, hok⟩ := publish_of_not_movesIn hl fun hmoves => h ⟨hv, hmoves⟩
    rw [result_of_verified hstart hv]
    exact ⟨(hclean _).trans hfinal, by simp [hok]⟩
  · rw [result_of_not_verified hstart hv]
    exact ⟨hclean _, rfl⟩

/-- **When publication is all or nothing.** If it is not, the package replaced the output and the
former one could not be removed, or the build changed the output and then stopped. -/
theorem allOrNothing_iff (hfresh : c.Fresh) : c.AllOrNothing ↔ c.Safe := by
  have hl := hfresh.layout
  by_cases hstart : c.Started
  · rw [Safe, imp_iff_right hstart]
    by_cases hreplaces : c.Replaces
    · obtain ⟨hfinal, hreturns, hraises⟩ := result_of_replaces hl hstart hreplaces
      rw [imp_iff_right hreplaces, and_iff_left fun h => absurd hreplaces h]
      by_cases hrem : Removable c.fault c.final c.built.1
      · have hv := hreplaces.1
        rw [AllOrNothing, hreturns hrem]
        exact ⟨fun _ => .inl hrem, fun _ => ⟨hfinal, hv.1, rfl, hv.2.2⟩⟩
      · rw [allOrNothing_of_none (hraises hrem), hfinal, or_iff_right hrem]
    · obtain ⟨hfinal, hraises⟩ := result_of_not_replaces hl hstart hreplaces
      rw [allOrNothing_of_none hraises, hfinal, and_iff_right fun h => absurd h hreplaces,
        imp_iff_right hreplaces]
  · have hsame := result_of_not_started hstart
    rw [allOrNothing_of_none (by rw [hsame]), hsame]
    exact ⟨fun _ h => absurd h hstart, fun _ => rfl⟩

/-- **A publication touches nothing else.** Whichever call fails, what lies beside the temporary
directory, the output and its backup stays as it was, if the files of the plan lie in the package.
-/
theorem below_result (hplan : Confined c.plan c.tmp) {q : Path} (htmp : Apart c.tmp q)
    (hfinal : Apart c.final q) (hbackup : Apart c.backup q) :
    c.result.1.below q = c.files.below q := by
  have hbuilt : c.built.1.below q = c.files.below q := by
    rw [built, keeps_buildPackage hplan htmp, below_put htmp.2]
  by_cases hstart : c.Started
  · by_cases hv : c.Verified
    · rw [result_of_verified hstart hv]
      exact (keeps_removeDir htmp _).trans ((keeps_publish htmp hfinal hbackup _).trans hbuilt)
    · rw [result_of_not_verified hstart hv]
      exact (keeps_removeDir htmp _).trans hbuilt
  · rw [result_of_not_started hstart]

/-! ### A sample -/

/-- A directory with a scene and an output directory that holds a manifest. -/
def sampleFiles : FileTree PathName Bytes := fun p =>
  if p = [] ∨ p = [sampleDir] then some .dir
  else if p = [sampleScene] then some (.file [1])
  else if p = [sampleDir, manifestFile] then
    some (.file [0])
  else none

/-- The publication of a scene without assets over the output directory. -/
def sample (fault : Option Fault) : Publication where
  env :=
    { tempName := sampleTempName
      manifestText := fun _ => [2]
      mappingText := fun _ => []
      blender := fun _ _ => (none, true) }
  fault := fault
  plan := { packageId := "p", sceneName := "scene" }
  parent := []
  name := sampleDir
  validate := validatePackage (fun _ => "") none { packageId := "p", sceneName := "scene" }
  sceneSource := "/a.blend"
  files := sampleFiles

theorem allOrNothing_sample : (sample none).AllOrNothing ↔ (sample none).Safe :=
  allOrNothing_iff (by decide +kernel)

/-- When the removal of the former output fails, the call raises with the new package in place. -/
theorem backup_not_removed : ¬ (sample (some { call := .removeBackup })).AllOrNothing := by
  intro h
  have hraises : (sample (some { call := .removeBackup })).result.2 = none := by decide +kernel
  rw [AllOrNothing, hraises] at h
  have hmanifest : (sample (some { call := .removeBackup })).result.1.below
      (sample (some { call := .removeBackup })).final [manifestFile] = some (.file [0]) := by
    rw [h]
    rfl
  exact absurd hmanifest (by decide +kernel)

theorem below_result_scene :
    (sample (some { call := .renameToFinal })).result.1.below [sampleScene] =
      sampleFiles.below [sampleScene] :=
  below_result ⟨(fun _ h => by cases h), by decide +kernel⟩ (by decide +kernel) (by decide +kernel)
    (by decide +kernel)

end Publication

end Aidars.Packaging
