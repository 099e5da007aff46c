import Aidars.Foundations.FileTree
import Aidars.Foundations.Paths
import Aidars.Worker.Ledger

/-!
# Sandboxes

The sandbox of an execution is a directory below `workloads_dir` that has the workload's identifier
as its name. `resolveSandboxDir` checks the identifier, resolves it from the root, and checks that
it has not led out of it; where there are no links, resolving is following the names of the path.

Only the check of the identifier ever rejects (`resolveSandboxDir_eq`): an identifier that passes it
is the name of one directory entry. `sandbox_admission_iff` says for which identifiers the entry of
an execution is as it should be. Those that are rejected are not among them, as the result that
reports the rejection has a category that the enumeration lacks.
-/

namespace Aidars.Worker

/-! ## The directory of an identifier -/

/-- The sandbox of a workload. `reprStr` writes a text with its quotes. -/
def resolveSandboxDir (reprStr : String → String) (realRoot : Path) (workloadId : String) :
    Except String Path :=
  if isSafeWorkloadId workloadId then
    let candidate := resolvePath realRoot workloadId
    if commonPath realRoot candidate ≠ realRoot ∨ candidate = realRoot then
      .error ("Sandbox path escapes workloads_dir: " ++ reprStr workloadId)
    else .ok candidate
  else .error ("Unsafe workload_id rejected: " ++ reprStr workloadId)

theorem isSafeChar_ne_slash {c : Char} (h : isSafeChar c = true) : c ≠ '/' := by
  rintro rfl
  exact absurd h (by decide)

theorem isSafeChar_of_isAlphanum {c : Char} (h : c.isAlphanum = true) : isSafeChar c = true := by
  rw [isSafeChar, h, Bool.true_or]

/-- What matches the pattern starts with a letter or digit and goes on with safe characters. -/
theorem matchesSafe_spec {cs : List Char} (h : matchesSafe cs = true) :
    (∃ c ∈ cs, c.isAlphanum = true) ∧ ∀ c ∈ cs, isSafeChar c = true := by
  cases cs with
  | nil => cases h
  | cons c cs =>
    simp only [matchesSafe, Bool.and_eq_true, List.all_eq_true] at h
    obtain ⟨⟨hc, -⟩, hcs⟩ := h
    exact ⟨⟨c, List.mem_cons_self, hc⟩,
      List.forall_mem_cons.2 ⟨isSafeChar_of_isAlphanum hc, hcs⟩⟩

/-- A safe identifier has a letter or digit and no slash. -/
theorem isSafeWorkloadId_spec {workloadId : String} (h : isSafeWorkloadId workloadId = true) :
    (∃ c ∈ workloadId.toList, c.isAlphanum = true) ∧ '/' ∉ workloadId.toList := by
  simp only [isSafeWorkloadId, Bool.and_eq_true, Bool.or_eq_true, decide_eq_true_eq] at h
  rcases h.1 with hsafe | ⟨hlast, hsafe⟩
  · obtain ⟨hletter, hall⟩ := matchesSafe_spec hsafe
    exact ⟨hletter, fun hslash => isSafeChar_ne_slash (hall _ hslash) rfl⟩
  · obtain ⟨⟨c, hc, hletter⟩, hall⟩ := matchesSafe_spec hsafe
    have hsplit := List.dropLast_append_getLast? '\n' hlast
    refine ⟨⟨c, List.mem_of_mem_dropLast hc, hletter⟩, fun hslash => ?_⟩
    rw [← hsplit, List.mem_append, List.mem_singleton] at hslash
    rcases hslash with hslash | hslash
    · exact isSafeChar_ne_slash (hall _ hslash) rfl
    · exact absurd hslash (by decide)

/-- The name of the sandbox. -/
def sandboxName (workloadId : String) (h : isSafeWorkloadId workloadId = true) : PathName where
  text := workloadId
  ne_empty := by
    rintro rfl
    exact absurd h (by decide)
  ne_dot := by
    rintro rfl
    exact absurd h (by decide)
  ne_up := by
    rintro rfl
    exact absurd h (by decide)
  no_slash := (isSafeWorkloadId_spec h).2

/-- **A safe identifier names a directory in the root**, and no other identifier has a sandbox. -/
theorem resolveSandboxDir_eq (reprStr : String → String) (realRoot : Path) (workloadId : String) :
    resolveSandboxDir reprStr realRoot workloadId =
      if h : isSafeWorkloadId workloadId = true then .ok (realRoot ++ [sandboxName workloadId h])
      else .error ("Unsafe workload_id rejected: " ++ reprStr workloadId) := by
  unfold resolveSandboxDir
  by_cases hsafe : isSafeWorkloadId workloadId = true
  · have hcandidate : resolvePath realRoot workloadId =
        realRoot ++ [sandboxName workloadId hsafe] :=
      resolvePath_name realRoot (sandboxName workloadId hsafe)
    rw [if_pos hsafe, dif_pos hsafe, hcandidate]
    dsimp only
    rw [commonPath_append, if_neg (by simp)]
  · rw [if_neg hsafe, dif_neg hsafe]

/-! ## The entry of an execution -/

/-- The members of the enumeration, by their names. -/
def failureCategories : List (String × FailureCategory) :=
  [("WORKER_UNAVAILABLE", .workerUnavailable), ("TEMPORARY_CAS_FAILURE", .temporaryCasFailure),
    ("RESOURCE_EXHAUSTION", .resourceExhaustion), ("EXECUTION_TIMEOUT", .executionTimeout),
    ("ASSET_TRANSFER_FAILURE", .assetTransferFailure),
    ("ASSET_STAGING_FAILURE", .assetStagingFailure), ("INVALID_INPUT", .invalidInput),
    ("INVALID_DEPENDENCY", .invalidDependency), ("MISSING_EXECUTABLE", .missingExecutable),
    ("INVALID_WORKLOAD", .invalidWorkload), ("APPLICATION_ERROR", .applicationError),
    ("AUTHORIZATION_FAILURE", .authorizationFailure), ("MALFORMED_REQUEST", .malformedRequest),
    ("ARTIFACT_VERIFICATION_FAILURE", .artifactVerificationFailure),
    ("EXECUTION_FAILURE", .executionFailure)]

/-- A member by its name; a name that the enumeration lacks raises. -/
def failureCategoryNamed (name : String) : Except String FailureCategory :=
  (failureCategories.lookup name).elim (.error name) .ok

/-- What the check of the identifier leads to: the call goes on with a sandbox, it returns, or it
raises. -/
inductive Admission
  | admitted (workdir : Path)
  | returned (result : WorkloadExecutionResult)
  | raised (message : String)
  deriving DecidableEq

variable (cfg : Config) (reprStr : String → String) (realRoot : Path)

/-- The first step of `execute_workload`. -/
def admission (workloadId : String) : Admission :=
  match resolveSandboxDir reprStr realRoot workloadId with
  | .ok workdir => .admitted workdir
  | .error message =>
    match failureCategoryNamed "INPUT_VALIDATION_ERROR" with
    | .ok category => .returned (failedResult cfg workloadId
        ("Invalid workload sandbox directory: " ++ message) category)
    | .error name => .raised name

variable {cfg reprStr realRoot}

theorem admission_of_safe {workloadId : String} (h : isSafeWorkloadId workloadId = true) :
    admission cfg reprStr realRoot workloadId =
      .admitted (realRoot ++ [sandboxName workloadId h]) := by
  rw [admission, resolveSandboxDir_eq, dif_pos h]

theorem admission_rejected {workloadId : String} (h : ¬ isSafeWorkloadId workloadId = true) :
    admission cfg reprStr realRoot workloadId = .raised "INPUT_VALIDATION_ERROR" := by
  rw [admission, resolveSandboxDir_eq, dif_neg h]
  rfl

/-- A rejected identifier makes the sandbox manager raise before it touches anything. -/
theorem enterManager_rejected {r : Record} (h : ¬ isSafeWorkloadId r.spec.workloadId = true)
    (existing : Option String) (entry : Entry) :
    r.enterManager cfg existing entry = (r.raise cfg "INPUT_VALIDATION_ERROR", []) := by
  simp [Record.enterManager, h]

/-! ## The law -/

variable (cfg reprStr realRoot)

/-- What the entry of an execution owes a workload: the identifier never makes it raise, a rejected
identifier is reported in a failed result and no sandbox is touched, and an accepted one has a
directory of its own, strictly below the root and apart from that of every other identifier. -/
structure Admits (workloadId : String) : Prop where
  never_raises : ∀ message, admission cfg reprStr realRoot workloadId ≠ .raised message
  rejected : ∀ message, resolveSandboxDir reprStr realRoot workloadId = .error message →
    (∃ result, admission cfg reprStr realRoot workloadId = .returned result ∧
      result.success = false) ∧
    ∀ (r : Record) (existing : Option String) (entry : Entry), r.spec.workloadId = workloadId →
      (r.enterManager cfg existing entry).2 = []
  accepted : ∀ workdir, resolveSandboxDir reprStr realRoot workloadId = .ok workdir →
    admission cfg reprStr realRoot workloadId = .admitted workdir ∧
    (realRoot <+: workdir ∧ workdir ≠ realRoot) ∧
    ∀ other workdir', other ≠ workloadId →
      resolveSandboxDir reprStr realRoot other = .ok workdir' →
      workdir' ≠ workdir ∧ FileTree.Apart workdir' workdir

variable {cfg reprStr realRoot}

theorem ok_resolveSandboxDir {workloadId : String} {workdir : Path}
    (h : resolveSandboxDir reprStr realRoot workloadId = .ok workdir) :
    ∃ hsafe, workdir = realRoot ++ [sandboxName workloadId hsafe] := by
  rw [resolveSandboxDir_eq] at h
  split_ifs at h with hsafe
  exact ⟨hsafe, (Except.ok.inj h).symm⟩

/-- Different sandboxes are apart. -/
theorem sandboxes_apart {m n : PathName} (h : m ≠ n) :
    realRoot ++ [m] ≠ realRoot ++ [n] ∧ FileTree.Apart (realRoot ++ [m]) (realRoot ++ [n]) := by
  refine ⟨fun heq => ?_, FileTree.apart_concat h⟩
  exact h (List.singleton_inj.1 (List.append_cancel_left heq))

/-- **For which identifiers the entry of an execution is as it should be.** They are those that are
accepted: letters, digits and `_.:#-`, at most 128 of them, the first one a letter or digit, perhaps
a final newline, and no two dots in a row. -/
theorem sandbox_admission_iff (cfg : Config) (reprStr : String → String) (realRoot : Path)
    (workloadId : String) :
    Admits cfg reprStr realRoot workloadId ↔ isSafeWorkloadId workloadId = true := by
  constructor
  · intro hlaw
    by_contra hsafe
    exact hlaw.never_raises _ (admission_rejected hsafe)
  · intro hsafe
    refine ⟨fun message => ?_, fun message hrejected => ?_, fun workdir hworkdir => ?_⟩
    · rw [admission_of_safe hsafe]
      simp
    · rw [resolveSandboxDir_eq, dif_pos hsafe] at hrejected
      cases hrejected
    · obtain ⟨_, rfl⟩ := ok_resolveSandboxDir hworkdir
      refine ⟨admission_of_safe hsafe, ⟨List.prefix_append _ _, by simp⟩, ?_⟩
      intro other workdir' hne hother
      obtain ⟨hother, rfl⟩ := ok_resolveSandboxDir hother
      exact sandboxes_apart fun heq => hne (congrArg PathName.text heq)

/-- The identifier `..` makes the call raise. -/
theorem unsafe_id_raises :
    ¬ ∀ (cfg : Config) (reprStr : String → String) (realRoot : Path) (workloadId : String),
      Admits cfg reprStr realRoot workloadId := by
  intro hclaim
  have hlaw := hclaim ⟨"a", fun _ => "0.0"⟩ id [] ".."
  exact hlaw.never_raises _ (admission_rejected (by decide))

end Aidars.Worker
