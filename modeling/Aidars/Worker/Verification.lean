import Aidars.Cas.Adapter
import Aidars.Orchestrator.Process
import Aidars.Worker.Execution

/-!
# The number of outputs

A workload may say how many output files it should have. When its process has ended, the files below
its output directory are stored one after the other (`ingestOutputs`), and the number that is
compared with `expected_output_count` is that of the hashes they are stored under: by the worker for
an execution of its own, by the coordinator for the members of a group together.

Files with equal contents have one hash. `single_output_count` and `group_output_count` say what is
counted, the different contents, and `output_count_verified` when this is as good as counting files.
-/

namespace Aidars.Worker

/-! ## Output directories -/

/-- The entries of a directory: a file or a directory with the entries after it, or no more. -/
inductive OutputDir
  | nil
  | file (name : String) (data : Bytes) (rest : OutputDir)
  | dir (name : String) (sub rest : OutputDir)
  deriving DecidableEq

namespace OutputDir

/-- The number of files, at any depth. -/
def fileCount : OutputDir → ℕ
  | nil => 0
  | file _ _ rest => rest.fileCount + 1
  | dir _ sub rest => sub.fileCount + rest.fileCount

/-- The files of a directory itself. -/
def ownFiles (root : String) : OutputDir → List (String × Bytes)
  | nil => []
  | file name data rest => (root ++ "/" ++ name, data) :: rest.ownFiles root
  | dir _ _ rest => rest.ownFiles root

/-- The files below the directories in a directory. -/
def walkDirs (root : String) : OutputDir → List (String × Bytes)
  | nil => []
  | file _ _ rest => rest.walkDirs root
  | dir name sub rest =>
    let root' := root ++ "/" ++ name
    sub.ownFiles root' ++ sub.walkDirs root' ++ rest.walkDirs root

/-- The files of a directory and of the directories below it, in the order of `os.walk`. -/
def walk (root : String) (d : OutputDir) : List (String × Bytes) :=
  d.ownFiles root ++ d.walkDirs root

/-- Each file is visited once. -/
theorem length_walk (root : String) (d : OutputDir) : (d.walk root).length = d.fileCount := by
  induction d generalizing root with
  | nil => rfl
  | file name data rest ih =>
    have hrest := ih root
    simp only [walk, ownFiles, walkDirs, fileCount, List.length_append, List.length_cons] at hrest ⊢
    omega
  | dir name sub rest ihsub ihrest =>
    have hsub := ihsub (root ++ "/" ++ name)
    have hrest := ihrest root
    simp only [walk, ownFiles, walkDirs, fileCount, List.length_append] at hsub hrest ⊢
    omega

/-- The contents of the files. -/
def contents (d : OutputDir) : List Bytes := (d.walk "outputs").map Prod.snd

@[simp] theorem length_contents (d : OutputDir) : d.contents.length = d.fileCount := by
  rw [contents, List.length_map, length_walk]

end OutputDir

/-! ## Ingestion -/

/-- What the ingestion of outputs depends on besides the files: the names of the staging files, the
calls of the file system that fail while a file is stored or measured, and how an error is
written. -/
structure IngestEnv where
  uuid : String → String
  faults : String → LocalCASAdapter.Faults
  getsizeError : String → Option String
  errorText : LocalCASAdapter.Failure → String

variable (sha256 : Bytes → String)

/-- Store one output; nothing is stored after an error. -/
def ingestFile (env : IngestEnv) (acc : LocalCASAdapter × Ingestion) (f : String × Bytes) :
    LocalCASAdapter × Ingestion :=
  if acc.2.error.isSome then acc
  else
    match acc.1.storeFile sha256 f.1 (some f.2) none (env.uuid f.1) (env.faults f.1) with
    | (cas, .ok hash) =>
      let hashes := acc.2.hashes ++ [hash]
      match env.getsizeError f.1 with
      | some message => (cas, { acc.2 with hashes, error := some message })
      | none =>
        (cas, { acc.2 with hashes, sizes := acc.2.sizes ++ [(hash, (f.2.length : ℤ))] })
    | (cas, .error e) => (cas, { acc.2 with error := some (env.errorText e) })

/-- Store the outputs. -/
def ingestOutputs (env : IngestEnv) (cas : LocalCASAdapter) (outputs : OutputDir) :
    LocalCASAdapter × Ingestion :=
  (outputs.walk "outputs").foldl (ingestFile sha256 env) (cas, {})

variable {sha256} {env : IngestEnv} {cas : LocalCASAdapter}

/-- A file is stored under the hash of its contents. -/
theorem storeFile_hash {src uuid hash : String} {data : Bytes} {f : LocalCASAdapter.Faults}
    (h : (cas.storeFile sha256 src (some data) none uuid f).2 = .ok hash) : hash = sha256 data := by
  have hdiscard : ∀ (cas : LocalCASAdapter) (staged : String) (e : LocalCASAdapter.Failure),
      (cas.discardStaged staged f (.error e : Except _ String)).2 ≠ .ok hash := by
    intro cas staged e
    unfold LocalCASAdapter.discardStaged
    split_ifs <;> simp
  unfold LocalCASAdapter.storeFile at h
  dsimp only at h
  split at h
  · cases h
  · exact absurd h (hdiscard _ _ _)
  · split_ifs at h with htarget
    · exact absurd h (hdiscard _ _ _)
    · unfold LocalCASAdapter.storedAs at h
      dsimp only at h
      split at h
      · exact (Except.ok.inj h).symm
      · cases h
      · cases h

theorem error_foldl_ingestFile {acc : LocalCASAdapter × Ingestion} {l : List (String × Bytes)}
    (h : (l.foldl (ingestFile sha256 env) acc).2.error = none) : acc.2.error = none := by
  induction l generalizing acc with
  | nil => exact h
  | cons f l ih =>
    have hstep := ih h
    unfold ingestFile at hstep
    split at hstep
    · exact hstep
    · rename_i hnone
      simpa using hnone

theorem hashes_foldl_ingestFile {acc : LocalCASAdapter × Ingestion} {l : List (String × Bytes)}
    (h : (l.foldl (ingestFile sha256 env) acc).2.error = none) :
    (l.foldl (ingestFile sha256 env) acc).2.hashes =
      acc.2.hashes ++ l.map fun f => sha256 f.2 := by
  induction l generalizing acc with
  | nil => simp
  | cons f l ih =>
    have hnone : (ingestFile sha256 env acc f).2.error = none := error_foldl_ingestFile h
    have hacc : acc.2.error = none :=
      error_foldl_ingestFile (l := f :: l) h
    rw [List.foldl_cons, ih h]
    suffices hstep : (ingestFile sha256 env acc f).2.hashes = acc.2.hashes ++ [sha256 f.2] by
      rw [hstep, List.map_cons, List.append_assoc, List.singleton_append]
    unfold ingestFile at hnone ⊢
    rw [hacc] at hnone ⊢
    simp only [Option.isSome_none, Bool.false_eq_true, if_false] at hnone ⊢
    split
    · rename_i cas' hash heq
      have hhash := storeFile_hash (congrArg Prod.snd heq)
      split
      · rw [hhash]
      · rw [hhash]
    · rename_i cas' e heq
      rw [heq] at hnone
      cases hnone

theorem hashes_ingestOutputs {outputs : OutputDir}
    (h : (ingestOutputs sha256 env cas outputs).2.error = none) :
    (ingestOutputs sha256 env cas outputs).2.hashes = outputs.contents.map sha256 := by
  unfold ingestOutputs at h ⊢
  rw [hashes_foldl_ingestFile h, OutputDir.contents, List.map_map]
  rfl

/-! ## Executions -/

/-- An execution whose process has ended: the worker it ran on, how it ended and what it left in its
output directory. -/
structure Execution where
  cfg : Config
  runtime : Runtime
  outcome : Outcome
  cas : LocalCASAdapter
  env : IngestEnv
  outputs : OutputDir
  times : Durations

namespace Execution

variable (sha256)

/-- What is ingested of the outputs. -/
def ingestion (e : Execution) : Ingestion := (ingestOutputs sha256 e.env e.cas e.outputs).2

/-- What the worker answers. An execution with a context is the part of a group. -/
def result (e : Execution) (spec : WorkloadSpec) (contextual : Bool) :
    Except String WorkloadExecutionResult :=
  finish e.cfg spec contextual e.runtime e.outcome (e.ingestion sha256) e.times

/-- The execution has succeeded, without a checkpoint, and its outputs are ingested. -/
structure Succeeded (e : Execution) : Prop where
  success : e.outcome.result.success = true
  not_cancelled : e.outcome.cancelled = false
  no_checkpoint : e.runtime.checkpointRequested = false
  ingested : (e.ingestion sha256).error = none

/-- What the coordinator is told of a member of a group. -/
def reply (e : Execution) (spec : WorkloadSpec) : String × Orchestrator.CallReply :=
  (e.cfg.workerId, match e.result sha256 spec true with
    | .ok r => .result r
    | .error message => .otherException message)

variable {sha256} {e : Execution} {spec : WorkloadSpec}

theorem Succeeded.ingests_eq (h : e.Succeeded sha256) : ingests e.runtime e.outcome = true := by
  simp [ingests, checkpointed, checkpointUnsupported, h.no_checkpoint, h.success, h.not_cancelled]

theorem Succeeded.ingested_eq (h : e.Succeeded sha256) :
    Worker.ingested e.runtime e.outcome (e.ingestion sha256) = e.outcome.result := by
  unfold Worker.ingested
  rw [h.ingests_eq, h.ingested]
  simp [checkpointed, checkpointUnsupported, h.no_checkpoint]

/-- The outputs that a result names: one hash for each content. -/
theorem Succeeded.hashes (h : e.Succeeded sha256) :
    (e.ingestion sha256).hashes.toFinset = (e.outputs.contents.toFinset).image sha256 := by
  ext hash
  rw [List.mem_toFinset, ingestion, hashes_ingestOutputs h.ingested, List.mem_map]
  simp

theorem Succeeded.result_eq (h : e.Succeeded sha256) {contextual tooFew : Bool}
    (hfew : verificationFails spec contextual e.outcome.result
      ((e.outputs.contents.toFinset).image sha256).card = .ok tooFew) :
    ∃ r, e.result sha256 spec contextual = .ok r ∧ r.success = !tooFew ∧
      r.wasCheckpointed = false ∧
      r.outputAssetHashes = (e.outputs.contents.toFinset).image sha256 := by
  have hsuccess := h.success
  unfold result finish
  simp only [h.ingests_eq, if_true, h.ingested_eq, h.hashes, hfew, bind, Except.bind, pure,
    Except.pure]
  cases tooFew with
  | false => exact ⟨_, rfl, hsuccess, rfl, rfl⟩
  | true => exact ⟨_, rfl, rfl, rfl, rfl⟩

theorem Succeeded.reply_eq (h : e.Succeeded sha256) (spec : WorkloadSpec) :
    ∃ r, e.reply sha256 spec = (e.cfg.workerId, .result r) ∧ r.success = true ∧
      r.wasCheckpointed = false ∧
      r.outputAssetHashes = (e.outputs.contents.toFinset).image sha256 := by
  have hfew : verificationFails spec true e.outcome.result
      ((e.outputs.contents.toFinset).image sha256).card = .ok false := by
    simp [verificationFails]
  obtain ⟨r, hr, hsuccess, hcheckpoint, hhashes⟩ := h.result_eq hfew
  exact ⟨r, by rw [reply, hr], hsuccess, hcheckpoint, hhashes⟩

/-- **What the worker counts.** An execution of its own succeeds when its outputs have enough
different contents. -/
theorem single_output_count (h : e.Succeeded sha256) {n : ℤ}
    (hn : spec.parameters.get? "expected_output_count" = some (.int n)) :
    ∃ r, e.result sha256 spec false = .ok r ∧ (r.success = true ↔
      n ≤ ((e.outputs.contents.toFinset).image sha256).card) := by
  have hfew : verificationFails spec false e.outcome.result
      ((e.outputs.contents.toFinset).image sha256).card =
      .ok (decide (((e.outputs.contents.toFinset).image sha256).card < n)) := by
    simp [verificationFails, h.success, hn, fewerThan]
  obtain ⟨r, hr, hsuccess, -, -⟩ := h.result_eq hfew
  refine ⟨r, hr, ?_⟩
  rw [hsuccess, Bool.not_eq_true', decide_eq_false_iff_not, not_lt]

/-! ## Groups -/

section Groups

variable {group : ExecutionGroup} {members : List Execution} {fcfg : Orchestrator.Config}

/-- The contents of the outputs of all members. -/
def groupContents (members : List Execution) : List Bytes :=
  members.flatMap fun e => e.outputs.contents

/-- The number of files of a group. -/
def groupFileCount (members : List Execution) : ℕ :=
  (members.map fun e => e.outputs.fileCount).sum

theorem length_groupContents (members : List Execution) :
    (groupContents members).length = groupFileCount members := by
  simp [groupContents, groupFileCount, List.length_flatMap]

theorem foldl_union_hashes {rs : List WorkloadExecutionResult} {s : Finset String} :
    rs.foldl (fun s r => s ∪ r.outputAssetHashes) s =
      s ∪ rs.foldl (fun s r => s ∪ r.outputAssetHashes) ∅ := by
  induction rs generalizing s with
  | nil => simp
  | cons r rs ih =>
    rw [List.foldl_cons, List.foldl_cons, ih, @ih (∅ ∪ r.outputAssetHashes), Finset.empty_union,
      Finset.union_assoc]

/-- The answers of members that have succeeded. -/
theorem exists_answers (spec : WorkloadSpec) (h : ∀ e ∈ members, e.Succeeded sha256) :
    ∃ answers : List (String × WorkloadExecutionResult),
      members.map (reply sha256 · spec) = answers.map (fun a => (a.1, .result a.2)) ∧
      answers.length = members.length ∧
      (∀ a ∈ answers, a.2.success = true ∧ a.2.wasCheckpointed = false) ∧
      (answers.map Prod.snd).foldl (fun s r => s ∪ r.outputAssetHashes) ∅ =
        ((groupContents members).toFinset).image sha256 := by
  induction members with
  | nil => exact ⟨[], rfl, rfl, by simp, rfl⟩
  | cons e members ih =>
    rw [List.forall_mem_cons] at h
    obtain ⟨r, hr, hsuccess, hcheckpoint, hhashes⟩ := h.1.reply_eq spec
    obtain ⟨answers, hanswers, hlength, hall, hunion⟩ := ih h.2
    refine ⟨(e.cfg.workerId, r) :: answers, ?_, ?_, ?_, ?_⟩
    · rw [List.map_cons, hr, hanswers, List.map_cons]
    · rw [List.length_cons, List.length_cons, hlength]
    · exact List.forall_mem_cons.2 ⟨⟨hsuccess, hcheckpoint⟩, hall⟩
    · rw [List.map_cons, List.foldl_cons, foldl_union_hashes, hunion, Finset.empty_union, hhashes]
      ext hash
      simp [groupContents, or_and_right, exists_or]

open Orchestrator in
theorem aggregate_answers {answers : List (String × WorkloadExecutionResult)}
    (hlength : answers.length = group.requiredWorkerCount)
    (hall : ∀ a ∈ answers, a.2.success = true ∧ a.2.wasCheckpointed = false) :
    ∃ r, State.aggregate spec group (answers.map fun a => (a.1, .result a.2)) = (r, ∅, ∅) ∧
      r.success = true ∧ r.outputAssetHashes =
        (answers.map Prod.snd).foldl (fun s r => s ∪ r.outputAssetHashes) ∅ := by
  have hreported : ∀ f : String × CallReply → Option (String × WorkloadExecutionResult),
      (∀ a, f (a.1, .result a.2) = some a) →
        (answers.map fun a => (a.1, CallReply.result a.2)).filterMap f = answers := by
    intro f hf
    have hcomp : (f ∘ fun a => (a.1, CallReply.result a.2)) = some := funext hf
    rw [List.filterMap_map, hcomp, List.filterMap_some]
  have htransport : ∀ f : String × CallReply → Option String,
      (∀ a : String × WorkloadExecutionResult, f (a.1, .result a.2) = none) →
        (answers.map fun a => (a.1, CallReply.result a.2)).filterMap f = [] := by
    intro f hf
    rw [List.filterMap_map]
    exact List.filterMap_eq_nil_iff.2 fun a _ => hf a
  have hunavailable : ∀ f : String × WorkloadExecutionResult → Option String,
      (∀ a ∈ answers, f a = none) → answers.filterMap f = [] :=
    fun f hf => List.filterMap_eq_nil_iff.2 hf
  have hfailure : (answers.map Prod.snd).find? (fun r => !r.success || r.wasCheckpointed) =
      none := by
    rw [List.find?_eq_none]
    intro r hr
    obtain ⟨a, ha, rfl⟩ := List.mem_map.1 hr
    simp [hall a ha]
  unfold State.aggregate
  dsimp only
  rw [hreported _ fun _ => rfl, htransport _ fun _ => rfl,
    hunavailable _ fun a ha => by simp [(hall a ha).1], hfailure,
    List.length_map, hlength]
  refine ⟨_, rfl, ?_, rfl⟩
  rw [decide_eq_true rfl]
  rfl

open Orchestrator in
/-- **What the coordinator counts.** A group whose members have succeeded succeeds when its outputs
have enough different contents. -/
theorem group_output_count (h : ∀ e ∈ members, e.Succeeded sha256)
    (hrequired : members.length = group.requiredWorkerCount) {n : ℤ}
    (hn : spec.parameters.get? "expected_output_count" = some (.int n)) :
    ∃ r, State.groupReply fcfg spec group (members.map (reply sha256 · spec)) = .result r ∅ ∅ ∧
      (r.success = true ↔ n ≤ (((groupContents members).toFinset).image sha256).card) := by
  obtain ⟨answers, hanswers, hlength, hall, hunion⟩ := exists_answers spec h
  obtain ⟨r, haggregate, hsuccess, hhashes⟩ :=
    @aggregate_answers spec group answers (hlength.trans hrequired) hall
  rw [hanswers, ← hunion, ← hhashes]
  simp only [State.groupReply, haggregate, hsuccess, if_true, hn, Option.getD_some, fewerThan]
  by_cases hfew : (r.outputAssetHashes.card : ℤ) < n
  · refine ⟨_, by rw [decide_eq_true hfew], ?_⟩
    simpa using hfew
  · refine ⟨r, by rw [decide_eq_false hfew], ?_⟩
    simpa [hsuccess] using hfew

end Groups

/-! ## Counting files -/

/-- No two of the contents have the same hash. -/
def CollisionFree (sha256 : Bytes → String) (contents : List Bytes) : Prop :=
  Set.InjOn sha256 (contents.toFinset : Set Bytes)

/-- Counting different contents is as good as counting files when there are enough of the former or
too few of the latter. -/
theorem count_iff {contents : List Bytes} {n : ℤ} {success : Prop}
    (hfree : CollisionFree sha256 contents)
    (h : success ↔ n ≤ ((contents.toFinset).image sha256).card) :
    (success ↔ n ≤ contents.length) ↔ n ≤ contents.toFinset.card ∨ contents.length < n := by
  have hle : contents.toFinset.card ≤ contents.length := contents.toFinset_card_le
  rw [Finset.card_image_of_injOn hfree] at h
  rw [h]
  omega

/-- **When the number of outputs is verified.** The answer to a successful execution says whether at
least the expected number of files were produced, by one worker or by the members of a group, just
when that many of them differ in their contents or there are fewer files. -/
theorem output_count_verified (sha256 : Bytes → String) (spec : WorkloadSpec) (n : ℤ)
    (hn : spec.parameters.get? "expected_output_count" = some (.int n)) :
    (∀ e : Execution, e.Succeeded sha256 → CollisionFree sha256 e.outputs.contents →
      ∃ r, e.result sha256 spec false = .ok r ∧
        ((r.success = true ↔ n ≤ e.outputs.fileCount) ↔
          n ≤ e.outputs.contents.toFinset.card ∨ e.outputs.fileCount < n)) ∧
    (∀ (fcfg : Orchestrator.Config) (group : ExecutionGroup) (members : List Execution),
      (∀ e ∈ members, e.Succeeded sha256) → members.length = group.requiredWorkerCount →
      CollisionFree sha256 (groupContents members) →
      ∃ r, Orchestrator.State.groupReply fcfg spec group (members.map (reply sha256 · spec)) =
          .result r ∅ ∅ ∧
        ((r.success = true ↔ n ≤ groupFileCount members) ↔
          n ≤ (groupContents members).toFinset.card ∨ groupFileCount members < n)) := by
  constructor
  · intro e he hfree
    obtain ⟨r, hr, hsuccess⟩ := single_output_count he hn
    rw [← OutputDir.length_contents]
    exact ⟨r, hr, count_iff hfree hsuccess⟩
  · intro fcfg group members hmembers hrequired hfree
    obtain ⟨r, hr, hsuccess⟩ := group_output_count hmembers hrequired hn
    rw [← length_groupContents]
    exact ⟨r, hr, count_iff hfree hsuccess⟩

/-! ## Samples -/

/-- The hashes of the empty file and of a file with the letter `a`. -/
def frameHash (data : Bytes) : String :=
  if data = [] then "e3b0c44298fc1c149afbf4c8996fb92427ae41e4649b934ca495991b7852b855"
  else "ca978112ca1bbdcafac231b39a23dc4da786eff8147c4e72b9807785afee48bb"

/-- Two frames were asked for. -/
def framesSpec : WorkloadSpec :=
  { workloadId := "w", taskType := "render",
    parameters := (∅ : Dict String Json).set "expected_output_count" (.int 2) }

/-- An execution that leaves two frames. -/
def framesExecution (first second : Bytes) : Execution where
  cfg := { workerId := "a", floatRepr := fun _ => "0.0" }
  runtime := {}
  outcome := { result := ⟨true, none, none⟩ }
  cas := {}
  env :=
    { uuid := id, faults := fun _ => {}, getsizeError := fun _ => none, errorText := fun _ => "" }
  outputs := .file "0001.png" first (.file "0002.png" second .nil)
  times := {}

theorem framesExecution_succeeded {first second : Bytes}
    (h : ((framesExecution first second).ingestion frameHash).error = none) :
    (framesExecution first second).Succeeded frameHash :=
  ⟨rfl, rfl, rfl, h⟩

/-- Two different frames are two outputs. -/
theorem output_count_verified_two : ∃ r,
    (framesExecution [] [97]).result frameHash framesSpec false = .ok r ∧ r.success = true := by
  obtain ⟨r, hr, hiff⟩ := (output_count_verified frameHash framesSpec 2 rfl).1
    (framesExecution [] [97]) (framesExecution_succeeded (by decide +kernel))
    (by unfold CollisionFree Set.InjOn; decide)
  exact ⟨r, hr, (hiff.2 (.inl (by decide))).2 (by decide)⟩

/-- Two equal frames fail the check of two outputs. -/
theorem equal_frames_fail :
    ¬ ∀ (sha256 : Bytes → String) (spec : WorkloadSpec) (n : ℤ) (e : Execution)
      (r : WorkloadExecutionResult),
      spec.parameters.get? "expected_output_count" = some (.int n) → e.Succeeded sha256 →
      e.result sha256 spec false = .ok r → (r.success = true ↔ n ≤ e.outputs.fileCount) := by
  intro hclaim
  have he : (framesExecution [97] [97]).Succeeded frameHash :=
    framesExecution_succeeded (by decide +kernel)
  obtain ⟨r, hr, hiff⟩ := @single_output_count _ _ framesSpec he 2 rfl
  have hsuccess := (hclaim frameHash framesSpec 2 _ r rfl he hr).2 (by decide)
  exact absurd (hiff.1 hsuccess) (by decide)

end Execution

end Aidars.Worker
