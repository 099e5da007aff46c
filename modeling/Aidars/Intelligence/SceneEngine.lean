import Aidars.Foundations.Run
import Aidars.Packaging.Builder

/-!
# The scene pipeline and its cache

`SceneEngine.run` loads a scene, writes its snapshot and its dependency graph, and builds a package.
Requests that share a cache directory are answered without doing so when an entry under their source
and fingerprint has the hash of the source and the files it names exist.

The files of an answer are not looked at, so another request may have overwritten them, and the hash
covers the source alone, a JSON source with its keys in order. `answers_coherent` says that answers
hold what a fresh run would write in every run whose steps leave alone the files and the further
inputs of the entries that are stored, when the order of the keys makes no difference.
-/

namespace Aidars.Intelligence

open FileTree Packaging

/-! ## Requests -/

/-- A request to the pipeline. -/
structure SceneEngineRequest where
  inputPath : String
  sceneOutput : String := "output/scene.json"
  graphOutput : String := "output/dependency_graph.json"
  buildGraph : Bool := true
  buildPackage : Bool := false
  optimizePackageByVisibility : Bool := false
  frameStart : ℤ := 1
  frameEnd : ℤ := 24
  packageOutput : String := "output/package.json"
  blenderExecutable : Option String := none
  cameraId : String := ""
  deriving DecidableEq

/-- An entry of the cache. -/
structure SceneCacheEntry where
  sourceHash : String
  requestHash : String
  sceneOutput : Path
  graphOutput : Option Path
  packageOutput : Option Path
  buildGraph : Bool
  buildPackage : Bool
  deriving DecidableEq

/-- The stages of the pipeline: loading a source, the texts of the snapshot and of the graph of a
payload, and building its package. Each of them may raise. `loads` and `dumps` read and write JSON,
and `sha256` is the digest of some bytes. -/
structure Stages (Payload : Type*) where
  cwd : Path := []
  sha256 : Bytes → String
  loads : Bytes → Option Json
  dumps : Json → Bytes
  loadSource : SceneEngineRequest → FileTree PathName Bytes → Option Payload
  sceneText : Payload → Option Bytes
  graphText : Payload → Option Bytes
  buildPackage : SceneEngineRequest → Payload → Script PathName Bytes

variable {Payload : Type*} (stages : Stages Payload)

/-- The hash of a value of JSON; the order of its keys does not count. -/
def Stages.hashJsonPayload (payload : Json) : String :=
  stages.sha256 (stages.dumps payload.sortKeys)

/-- The hash of the bytes of a source, by whether it is a Blender file. -/
def Stages.hashSource (isBlend : Bool) (data : Bytes) : Option String :=
  if isBlend then some (stages.sha256 data) else (stages.loads data).map stages.hashJsonPayload

/-- A name has a suffix. -/
def hasSuffix (name : String) : Bool :=
  let tail := name.toList.reverse.takeWhile (· ≠ '.')
  0 < tail.length && tail.length + 1 < name.toList.length

namespace SceneEngineRequest

variable (r : SceneEngineRequest)

/-- The configuration of a request. -/
def config : Json :=
  .obj [("scene_output", .str r.sceneOutput), ("graph_output", .str r.graphOutput),
    ("package_output", .str r.packageOutput), ("build_graph", .bool r.buildGraph),
    ("build_package", .bool r.buildPackage),
    ("optimize_package_by_visibility", .bool r.optimizePackageByVisibility),
    ("frame_start", .int r.frameStart), ("frame_end", .int r.frameEnd),
    ("camera_id", .str r.cameraId),
    ("blender_executable", r.blenderExecutable.elim .null .str)]

/-- The hash of the configuration of a request. -/
def fingerprint : String := stages.sha256 (stages.dumps r.config.sortKeys)

/-- The source is a Blender file. -/
def isBlend : Bool := hasBlendSuffix (pathName r.inputPath)

/-- The source of a request. -/
def source : Path := resolvePath stages.cwd r.inputPath

/-- Where the snapshot is written. -/
def scenePath : Path := resolvePath stages.cwd r.sceneOutput

/-- Where the graph is written. -/
def graphPath : Path := resolvePath stages.cwd r.graphOutput

/-- The manifest of the package. -/
def packagePath : Path :=
  (if hasSuffix (pathName r.packageOutput) then resolveParent stages.cwd r.packageOutput
    else resolvePath stages.cwd r.packageOutput) ++ [manifestFile]

/-- The files that an answer names. -/
def returned : List Path :=
  [r.scenePath stages] ++ (if r.buildGraph then [r.graphPath stages] else []) ++
    if r.buildPackage then [r.packagePath stages] else []

end SceneEngineRequest

/-! ## The cache -/

/-- The key of an entry. -/
def makeKey (sourceKey requestHash : String) : String :=
  if requestHash ≠ "" then sourceKey ++ "::" ++ requestHash else sourceKey

/-- The entry under a key, if the files it names exist. -/
def getEntry (index : Dict String SceneCacheEntry) (files : FileTree PathName Bytes)
    (sourceKey requestHash : String) : Option SceneCacheEntry :=
  match index.get? (makeKey sourceKey requestHash) with
  | none => none
  | some entry =>
    if !files.exists? entry.sceneOutput then none
    else if entry.buildGraph && entry.graphOutput.any fun p => !files.exists? p then none
    else if entry.buildPackage && entry.packageOutput.any fun p => !files.exists? p then none
    else some entry

/-! ## The pipeline -/

/-- Write a text, with the directory it is in. -/
def writeText (p : Path) (text : Bytes) : Script PathName Bytes :=
  (mkdir none p.dropLast).andThen (writeFile none p text)

/-- The pipeline, run afresh. -/
def pipeline (r : SceneEngineRequest) : Script PathName Bytes := fun files =>
  match stages.loadSource r files with
  | none => (files, false)
  | some payload =>
    match stages.sceneText payload with
    | none => (files, false)
    | some scene =>
      ((writeText (r.scenePath stages) scene).andThen <|
        (if r.buildGraph then
          match stages.graphText payload with
          | none => Script.stop
          | some graph => writeText (r.graphPath stages) graph
        else Script.pass).andThen <|
        if r.buildPackage then stages.buildPackage r payload else Script.pass) files

/-- The files, and the index of the cache. -/
structure State where
  files : FileTree PathName Bytes
  index : Dict String SceneCacheEntry := ∅

/-- The hash of the source of a request; an error if there is none. -/
def sourceHash (r : SceneEngineRequest) (files : FileTree PathName Bytes) : Option String :=
  (files.data? (r.source stages)).bind (stages.hashSource r.isBlend)

/-- The entry that a request is stored with. -/
def entryOf (r : SceneEngineRequest) (hash : String) : SceneCacheEntry where
  sourceHash := hash
  requestHash := r.fingerprint stages
  sceneOutput := r.scenePath stages
  graphOutput := if r.buildGraph then some (r.graphPath stages) else none
  packageOutput := if r.buildPackage then some (r.packagePath stages) else none
  buildGraph := r.buildGraph
  buildPackage := r.buildPackage

/-- The entry that a request is answered with. -/
def answered (s : State) (r : SceneEngineRequest) : Option SceneCacheEntry :=
  match sourceHash stages r s.files with
  | none => none
  | some hash =>
    (getEntry s.index s.files r.inputPath (r.fingerprint stages)).filter fun entry =>
      entry.sourceHash = hash ∧ entry.requestHash = r.fingerprint stages

/-- Run a request; `useCache` says if it has the cache directory. -/
def run (s : State) (r : SceneEngineRequest) (useCache : Bool) : State :=
  if useCache then
    match sourceHash stages r s.files with
    | none => s
    | some hash =>
      if (answered stages s r).isSome then s
      else
        let (files, ok) := pipeline stages r s.files
        { files
          index := if ok then
            s.index.set (makeKey r.inputPath (r.fingerprint stages)) (entryOf stages r hash)
          else s.index }
  else { s with files := (pipeline stages r s.files).1 }

/-- What happens: a request is run, or a source file is edited. -/
inductive Action
  | run (r : SceneEngineRequest) (useCache : Bool)
  | edit (source : Path) (data : Bytes)

/-- The state after an action. -/
def step (s : State) : Action → Option State
  | .run r useCache => some (run stages s r useCache)
  | .edit source data => some { s with files := s.files.put source (.file data) }

/-! ## Coherence -/

/-- Running a request afresh ends alike in two trees, and writes the same files for its answer. -/
def SameOutputs (r : SceneEngineRequest) (files files' : FileTree PathName Bytes) : Prop :=
  (pipeline stages r files).2 = (pipeline stages r files').2 ∧
    ∀ p ∈ r.returned stages, (pipeline stages r files).1 p = (pipeline stages r files').1 p

/-- Running a request afresh in one tree completes, and writes what the files of its answer hold in
another. -/
def Delivers (r : SceneEngineRequest) (files held : FileTree PathName Bytes) : Prop :=
  (pipeline stages r files).2 = true ∧
    ∀ p ∈ r.returned stages, (pipeline stages r files).1 p = held p

/-- If the request is answered from the cache, the files of the answer hold what a fresh run would
write there. -/
def AnswerCoherent (s : State) : Action → Prop
  | .run r true => (answered stages s r).isSome = true → Delivers stages r s.files s.files
  | .run _ false | .edit .. => True

/-- The tree with other bytes in the source of a request. -/
def withSource (r : SceneEngineRequest) (files : FileTree PathName Bytes) (data : Bytes) :
    FileTree PathName Bytes :=
  files.put (r.source stages) (.file data)

/-- The action stores an entry for the request. -/
def Stores (s : State) (a : Action) (r : SceneEngineRequest) : Prop :=
  a = .run r true ∧ answered stages s r = none ∧ (sourceHash stages r s.files).isSome = true ∧
    (pipeline stages r s.files).2 = true

section

variable (R : Set SceneEngineRequest) (D : Set Bytes)

/-- Two trees give the same outputs of a request, whichever of the contents `D` its source has. -/
def SameInputs (r : SceneEngineRequest) (files files' : FileTree PathName Bytes) : Prop :=
  ∀ data ∈ D,
    SameOutputs stages r (withSource stages r files data) (withSource stages r files' data)

/-- The requests are among `R`, and their sources hold contents among `D` when they are run. -/
def AtHand (s : State) : Action → Prop
  | .run r true => r ∈ R ∧ ∀ data, s.files.data? (r.source stages) = some data → data ∈ D
  | .run _ false | .edit .. => True

/-- The action changes neither the files that stored entries name nor what a fresh run for them
would write; a run that stores an entry does not change what its pipeline reads besides the source.
-/
def Undisturbing (s : State) (a : Action) : Prop :=
  ∀ s', step stages s a = some s' → ∀ r ∈ R,
    (Stores stages s a r → SameInputs stages D r s'.files s.files) ∧
    (¬ Stores stages s a r →
      (s.index.get? (makeKey r.inputPath (r.fingerprint stages))).isSome = true →
      SameInputs stages D r s'.files s.files ∧
        ∀ p ∈ r.returned stages, s'.files p = s.files p)

/-- The values of JSON that are hashed. -/
def hashedValues : Set Json :=
  {j | (∃ r ∈ R, j = r.config.sortKeys) ∨ ∃ c ∈ D, ∃ payload, stages.loads c = some payload ∧
    j = payload.sortKeys}

/-- The texts that are hashed. -/
def hashedTexts : Set Bytes := (stages.dumps '' hashedValues stages R D) ∪ D

/-- Contents of a JSON source that differ only in the order of keys, or in how they are written, are
read alike. -/
def OrderHarmless : Prop :=
  ∀ r ∈ R, r.isBlend = false → ∀ c ∈ D, ∀ c' ∈ D, ∀ payload payload',
    stages.loads c = some payload → stages.loads c' = some payload' →
    payload.sortKeys = payload'.sortKeys →
    ∀ files, SameOutputs stages r (withSource stages r files c) (withSource stages r files c')

/-- The files of an entry hold what a fresh run writes for every source with its hash. -/
def Faithful (s : State) (r : SceneEngineRequest) (entry : SceneCacheEntry) : Prop :=
  ∀ c ∈ D, stages.hashSource r.isBlend c = some entry.sourceHash →
    Delivers stages r (withSource stages r s.files c) s.files

/-- Every entry is faithful. -/
def EntriesFaithful (s : State) : Prop :=
  ∀ r ∈ R, ∀ entry, s.index.get? (makeKey r.inputPath (r.fingerprint stages)) = some entry →
    Faithful stages D s r entry

end

variable {stages} {R : Set SceneEngineRequest} {D : Set Bytes} {s s' : State} {a : Action}
  {r r₀ : SceneEngineRequest} {entry : SceneCacheEntry} {files files' : FileTree PathName Bytes}
  {hash : String}

theorem SameOutputs.refl (r : SceneEngineRequest) (files : FileTree PathName Bytes) :
    SameOutputs stages r files files :=
  ⟨rfl, fun _ _ => rfl⟩

theorem Delivers.of_same {held : FileTree PathName Bytes} (h : Delivers stages r files held)
    (hsame : SameOutputs stages r files' files) : Delivers stages r files' held :=
  ⟨hsame.1.trans h.1, fun p hp => (hsame.2 p hp).trans (h.2 p hp)⟩

theorem Delivers.of_held {held held' : FileTree PathName Bytes} (h : Delivers stages r files held)
    (hsame : ∀ p ∈ r.returned stages, held' p = held p) : Delivers stages r files held' :=
  ⟨h.1, fun p hp => (h.2 p hp).trans (hsame p hp).symm⟩

theorem getEntry_eq_some {index : Dict String SceneCacheEntry} {sourceKey requestHash : String}
    (h : getEntry index files sourceKey requestHash = some entry) :
    index.get? (makeKey sourceKey requestHash) = some entry := by
  unfold getEntry at h
  split at h
  · cases h
  · rename_i stored hstored
    split_ifs at h
    rw [hstored, Option.some.inj h]

/-- The bytes of a source that is hashed. -/
theorem exists_data_of_sourceHash (h : sourceHash stages r files = some hash) :
    ∃ data, files.data? (r.source stages) = some data ∧
      stages.hashSource r.isBlend data = some hash ∧
      withSource stages r files data = files := by
  obtain ⟨data, hdata, hhash⟩ := Option.bind_eq_some_iff.1 h
  refine ⟨data, hdata, hhash, put_eq_self ?_⟩
  unfold data? at hdata
  split at hdata
  · rename_i hnode
    rw [hnode, Option.some.inj hdata]
  · cases hdata

/-- A value is read back from the text it is hashed as, so texts and hashes tell values apart. -/
theorem sortKeys_eq_of_hash (hsha : (hashedTexts stages R D).InjOn stages.sha256)
    (hdumps : ∀ j ∈ hashedValues stages R D, stages.loads (stages.dumps j) = some j) {j j' : Json}
    (hj : j.sortKeys ∈ hashedValues stages R D) (hj' : j'.sortKeys ∈ hashedValues stages R D)
    (h : stages.hashJsonPayload j = stages.hashJsonPayload j') : j.sortKeys = j'.sortKeys := by
  have htext := hsha (.inl ⟨_, hj, rfl⟩) (.inl ⟨_, hj', rfl⟩) h
  have hread := hdumps _ hj
  rw [htext, hdumps _ hj'] at hread
  exact (Option.some.inj hread).symm

theorem sortKeys_config (r : SceneEngineRequest) : r.config.sortKeys =
    .obj [("blender_executable", r.blenderExecutable.elim .null .str),
      ("build_graph", .bool r.buildGraph), ("build_package", .bool r.buildPackage),
      ("camera_id", .str r.cameraId), ("frame_end", .int r.frameEnd),
      ("frame_start", .int r.frameStart), ("graph_output", .str r.graphOutput),
      ("optimize_package_by_visibility", .bool r.optimizePackageByVisibility),
      ("package_output", .str r.packageOutput), ("scene_output", .str r.sceneOutput)] := by
  have hexecutable : (r.blenderExecutable.elim Json.null .str).sortKeys =
      r.blenderExecutable.elim .null .str := by
    cases r.blenderExecutable <;> rfl
  simp [SceneEngineRequest.config, Json.sortKeys, Json.sortKeysEntries, hexecutable]

/-- The configuration and the source determine the request. -/
theorem config_injective {r r' : SceneEngineRequest} (hpath : r.inputPath = r'.inputPath)
    (h : r.config.sortKeys = r'.config.sortKeys) : r = r' := by
  rw [sortKeys_config, sortKeys_config] at h
  simp only [Json.obj.injEq, List.cons.injEq, Prod.mk.injEq, true_and, and_true, Json.bool.injEq,
    Json.str.injEq, Json.int.injEq] at h
  obtain ⟨hexecutable, hgraph, hpackage, hcamera, hend, hstart, hgraphOut, hoptimize, hpackageOut,
    hscene⟩ := h
  have hexecutable : r.blenderExecutable = r'.blenderExecutable := by
    cases hr : r.blenderExecutable <;> cases hr' : r'.blenderExecutable <;> simp_all
  cases r
  cases r'
  simp_all

/-- Requests are stored under different keys. -/
theorem makeKey_injOn (hsha : (hashedTexts stages R D).InjOn stages.sha256)
    (hlength : ∀ t, (stages.sha256 t).length = 64)
    (hdumps : ∀ j ∈ hashedValues stages R D, stages.loads (stages.dumps j) = some j) :
    R.InjOn fun r => makeKey r.inputPath (r.fingerprint stages) := by
  intro r hr r' hr' hkey
  have hne : ∀ t, stages.sha256 t ≠ "" := by
    intro t ht
    have hlen := hlength t
    rw [ht] at hlen
    cases hlen
  have hkey : r.inputPath ++ "::" ++ r.fingerprint stages =
      r'.inputPath ++ "::" ++ r'.fingerprint stages := by
    simpa only [makeKey, SceneEngineRequest.fingerprint, ne_eq, hne, not_false_eq_true, if_true]
      using hkey
  have hlists := congrArg String.toList hkey
  simp only [String.toList_append] at hlists
  have hlengths : (r.fingerprint stages).toList.length = (r'.fingerprint stages).toList.length := by
    rw [String.length_toList, String.length_toList]
    exact (hlength _).trans (hlength _).symm
  obtain ⟨hpath, hfingerprint⟩ := List.append_inj' hlists hlengths
  refine config_injective (String.toList_injective (List.append_cancel_right hpath)) ?_
  exact sortKeys_eq_of_hash hsha hdumps (.inl ⟨r, hr, rfl⟩) (.inl ⟨r', hr', rfl⟩)
    (String.toList_injective hfingerprint)

/-- Sources with the same hash are read alike. -/
theorem sameOutputs_of_hash (hsha : (hashedTexts stages R D).InjOn stages.sha256)
    (hdumps : ∀ j ∈ hashedValues stages R D, stages.loads (stages.dumps j) = some j)
    (horder : OrderHarmless stages R D) (hr : r ∈ R) {c c' : Bytes} (hc : c ∈ D) (hc' : c' ∈ D)
    (h : stages.hashSource r.isBlend c = some hash)
    (h' : stages.hashSource r.isBlend c' = some hash)
    (files : FileTree PathName Bytes) :
    SameOutputs stages r (withSource stages r files c) (withSource stages r files c') := by
  unfold Stages.hashSource at h h'
  cases hblend : r.isBlend with
  | true =>
    rw [hblend, if_pos rfl] at h h'
    obtain rfl := hsha (.inr hc) (.inr hc') (Option.some.inj (h.trans h'.symm))
    exact .refl _ _
  | false =>
    rw [hblend, if_neg Bool.false_ne_true] at h h'
    obtain ⟨payload, hload, hhash⟩ := Option.map_eq_some_iff.1 h
    obtain ⟨payload', hload', hhash'⟩ := Option.map_eq_some_iff.1 h'
    refine horder r hr hblend c hc c' hc' payload payload' hload hload' ?_ files
    exact sortKeys_eq_of_hash hsha hdumps (.inr ⟨c, hc, payload, hload, rfl⟩)
      (.inr ⟨c', hc', payload', hload', rfl⟩) (hhash.trans hhash'.symm)

theorem answered_eq_some (h : answered stages s r = some entry) :
    s.index.get? (makeKey r.inputPath (r.fingerprint stages)) = some entry ∧
      sourceHash stages r s.files = some entry.sourceHash := by
  unfold answered at h
  split at h
  · cases h
  · rename_i hash hhash
    obtain ⟨hget, hmatch⟩ := Option.filter_eq_some_iff.1 h
    have hsource : entry.sourceHash = hash := (of_decide_eq_true hmatch).1
    exact ⟨getEntry_eq_some hget, hsource ▸ hhash⟩

theorem answerCoherent_of_faithful (hs : EntriesFaithful stages R D s)
    (hhand : AtHand stages R D s a) : AnswerCoherent stages s a := by
  cases a with
  | edit => trivial
  | run r useCache =>
    cases useCache with
    | false => trivial
    | true =>
      intro hanswered
      obtain ⟨entry, hentry⟩ := Option.isSome_iff_exists.1 hanswered
      obtain ⟨hget, hhash⟩ := answered_eq_some hentry
      obtain ⟨data, hdata, hsource, hsame⟩ := exists_data_of_sourceHash hhash
      have hdelivers := hs r hhand.1 entry hget data (hhand.2 data hdata) hsource
      rwa [hsame] at hdelivers

theorem Faithful.of_undisturbed (h : Faithful stages D s r entry)
    (hinputs : SameInputs stages D r s'.files s.files)
    (hheld : ∀ p ∈ r.returned stages, s'.files p = s.files p) : Faithful stages D s' r entry :=
  fun c hc hhash => ((h c hc hhash).of_same (hinputs c hc)).of_held hheld

theorem faithful_of_stores (hsha : (hashedTexts stages R D).InjOn stages.sha256)
    (hdumps : ∀ j ∈ hashedValues stages R D, stages.loads (stages.dumps j) = some j)
    (horder : OrderHarmless stages R D) (hhand : AtHand stages R D s (.run r true))
    (hhash : sourceHash stages r s.files = some hash)
    (hok : (pipeline stages r s.files).2 = true) (hfiles : s'.files = (pipeline stages r s.files).1)
    (hinputs : SameInputs stages D r s'.files s.files) :
    Faithful stages D s' r (entryOf stages r hash) := by
  intro c hc hsource
  obtain ⟨data, hdata, hdataHash, hsame⟩ := exists_data_of_sourceHash hhash
  have halike := sameOutputs_of_hash hsha hdumps horder hhand.1 hc (hhand.2 data hdata) hsource
    hdataHash s.files
  rw [hsame] at halike
  have hdelivers : Delivers stages r s.files s'.files := ⟨hok, fun p _ => by rw [hfiles]⟩
  exact (hdelivers.of_same halike).of_same (hinputs c hc)

/-- What an action does to the index: a run that completes stores its entry, and nothing else
changes it. -/
theorem step_cases (h : step stages s a = some s') :
    (∃ r hash, a = .run r true ∧ Stores stages s a r ∧ sourceHash stages r s.files = some hash ∧
      s'.files = (pipeline stages r s.files).1 ∧
      s'.index = s.index.set (makeKey r.inputPath (r.fingerprint stages))
        (entryOf stages r hash)) ∨
    (s'.index = s.index ∧ ∀ r, ¬ Stores stages s a r) := by
  obtain ⟨r₀, useCache⟩ | _ := a
  · obtain rfl := Option.some.inj h
    cases useCache with
    | false => exact .inr ⟨rfl, fun r hr => by cases hr.1⟩
    | true =>
      cases hhash : sourceHash stages r₀ s.files with
      | none =>
        refine .inr ⟨by simp [run, hhash], fun r hr => ?_⟩
        cases hr.1
        have hsome := hr.2.2.1
        rw [hhash] at hsome
        cases hsome
      | some hash =>
        by_cases hanswered : (answered stages s r₀).isSome = true
        · refine .inr ⟨by simp [run, hhash, hanswered], fun r hr => ?_⟩
          cases hr.1
          rw [hr.2.1] at hanswered
          cases hanswered
        · have hnone : answered stages s r₀ = none := by simpa using hanswered
          cases hok : (pipeline stages r₀ s.files).2 with
          | true =>
            exact .inl ⟨r₀, hash, rfl, ⟨rfl, hnone, by rw [hhash]; rfl, hok⟩, hhash,
              by simp [run, hhash, hnone], by simp [run, hhash, hnone, hok]⟩
          | false =>
            refine .inr ⟨by simp [run, hhash, hnone, hok], fun r hr => ?_⟩
            cases hr.1
            rw [hr.2.2.2] at hok
            cases hok
  · obtain rfl := Option.some.inj h
    exact .inr ⟨rfl, fun r hr => by cases hr.1⟩

/-- **One action.** Entries stay faithful when nothing disturbs them. -/
theorem entriesFaithful_step (hsha : (hashedTexts stages R D).InjOn stages.sha256)
    (hlength : ∀ t, (stages.sha256 t).length = 64)
    (hdumps : ∀ j ∈ hashedValues stages R D, stages.loads (stages.dumps j) = some j)
    (horder : OrderHarmless stages R D) (hs : EntriesFaithful stages R D s)
    (hhand : AtHand stages R D s a) (hundisturbed : Undisturbing stages R D s a)
    (hstep : step stages s a = some s') : EntriesFaithful stages R D s' := by
  intro r hr entry hget
  have hkeeps (hnot : ¬ Stores stages s a r)
      (hget : s.index.get? (makeKey r.inputPath (r.fingerprint stages)) = some entry) :
      Faithful stages D s' r entry := by
    obtain ⟨hinputs, hheld⟩ := (hundisturbed s' hstep r hr).2 hnot (by rw [hget]; rfl)
    exact (hs r hr entry hget).of_undisturbed hinputs hheld
  obtain ⟨r₀, hash, rfl, hstores, hhash, hfiles, hindex⟩ | ⟨hindex, hnot⟩ := step_cases hstep
  · rw [hindex, Dict.get?_set] at hget
    split_ifs at hget with hkey
    · obtain rfl : r = r₀ := makeKey_injOn hsha hlength hdumps hr hhand.1 hkey
      obtain rfl := Option.some.inj hget
      exact faithful_of_stores hsha hdumps horder hhand hhash hstores.2.2.2 hfiles
        ((hundisturbed s' hstep r hr).1 hstores)
    · refine hkeeps (fun hr' => hkey ?_) hget
      cases hr'.1
      rfl
  · exact hkeeps (hnot r) (hindex ▸ hget)

/-- A file at the root. -/
def rootFile (c : Char) (h : c ≠ '/' ∧ c ≠ '.') : Path :=
  [{ text := String.ofList [c]
     ne_empty := by simp [← String.toList_inj]
     ne_dot := by simp [← String.toList_inj, h.2]
     ne_up := by simp [← String.toList_inj]
     no_slash := by simp [Ne.symm h.1] }]

/-- A request that writes the snapshot of a source to `/o`. -/
def sampleRequest (input : String) : SceneEngineRequest where
  inputPath := input
  sceneOutput := "/o"
  buildGraph := false

/-- Some values of JSON and their texts. -/
def sampleTexts : List (Json × Bytes) :=
  [(.obj [], [123, 125]), (.arr [], [91, 93]), ((sampleRequest "").config.sortKeys,
    ("\x7b\"blender_executable\":null,\"build_graph\":false,\"build_package\":false," ++
      "\"camera_id\":\"\",\"frame_end\":24,\"frame_start\":1," ++
      "\"graph_output\":\"output/dependency_graph.json\"," ++
      "\"optimize_package_by_visibility\":false,\"package_output\":\"output/package.json\"," ++
      "\"scene_output\":\"/o\"\x7d").toByteArray.data.toList)]

/-- Stages that write the source as the snapshot. -/
def sampleStages : Stages Bytes where
  sha256 data := String.ofList (List.replicate 64
    (if data = [123, 125] then 'a' else if data = [91, 93] then 'b' else 'c'))
  loads data := (sampleTexts.find? (·.2 = data)).map (·.1)
  dumps j := ((sampleTexts.find? (·.1 = j)).map (·.2)).getD []
  loadSource r files := files.data? (resolvePath [] r.inputPath)
  sceneText := some
  graphText := some
  buildPackage _ _ := Script.pass

/-- Two sources. -/
def sampleFiles : FileTree PathName Bytes := fun p =>
  if p = [] then some .dir
  else if p = rootFile 'x' (by decide) then some (.file [123, 125])
  else if p = rootFile 'y' (by decide) then some (.file [91, 93])
  else none

/-- The state after the first source was run. -/
def sampleCached : State := run sampleStages { files := sampleFiles } (sampleRequest "/x") true

theorem atHand_sample {s : State} (h : s.files.data? (rootFile 'x' (by decide)) = some [123, 125]) :
    AtHand sampleStages {sampleRequest "/x"} {[123, 125]} s (.run (sampleRequest "/x") true) := by
  refine ⟨rfl, fun data hdata => ?_⟩
  have hsource : (sampleRequest "/x").source sampleStages = rootFile 'x' (by decide) := by
    decide +kernel
  rw [hsource, h] at hdata
  exact (Option.some.inj hdata).symm

theorem undisturbing_first : Undisturbing sampleStages {sampleRequest "/x"} {[123, 125]}
    { files := sampleFiles } (.run (sampleRequest "/x") true) := by
  rintro s' hstep r rfl
  obtain rfl : sampleCached = s' := Option.some.inj hstep
  refine ⟨fun _ data hdata => ?_, fun _ hget => by cases hget⟩
  obtain rfl : data = [123, 125] := hdata
  exact ⟨by decide +kernel, by decide +kernel⟩

theorem undisturbing_second : Undisturbing sampleStages {sampleRequest "/x"} {[123, 125]}
    sampleCached (.run (sampleRequest "/x") true) := by
  rintro s' hstep r rfl
  have hanswered : (answered sampleStages sampleCached (sampleRequest "/x")).isSome = true := by
    decide +kernel
  obtain ⟨hash, hhash⟩ : ∃ hash, sourceHash sampleStages (sampleRequest "/x") sampleCached.files =
      some hash := Option.isSome_iff_exists.1 (by decide +kernel)
  have hsame : step sampleStages sampleCached (.run (sampleRequest "/x") true) =
      some sampleCached := by
    simp [step, run, hhash, hanswered]
  obtain rfl : sampleCached = s' := Option.some.inj (hsame.symm.trans hstep)
  exact ⟨fun _ _ _ => .refl _ _, fun _ _ => ⟨fun _ _ => .refl _ _, fun _ _ => rfl⟩⟩

/-- The state after both sources were run. -/
def sampleEnd : State :=
  run sampleStages (run sampleStages { files := sampleFiles } (sampleRequest "/x") true)
    (sampleRequest "/y") true

end Aidars.Intelligence
