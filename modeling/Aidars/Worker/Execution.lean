import Aidars.Models.Workload
import Mathlib.Data.Finset.Card

/-!
# What an execution computes

The parts of `ExecutionManager.execute_workload` that compute without awaiting anything: the check
of a workload identifier, what `GenericSubprocessRuntime` returns when its process has ended, and
the result that is made of this (`finish`): a requested checkpoint that the runtime does not
support, the ingestion of the outputs and the check of their number can each turn a success into a
failure.

An execution succeeds only if its runtime has, and was not asked to checkpoint (`finish_success`). A
runtime that was asked to cancel before its process ended reports no success, except for a
checkpoint (`result_cancelled`).
-/

namespace Aidars.Worker

/-- What a worker is configured with. `floatRepr` writes a float. -/
structure Config where
  workerId : String
  floatRepr : PyFloat → String

/-! ## Sandboxes -/

/-- The characters after the first one of an identifier. -/
def isSafeChar (c : Char) : Bool := c.isAlphanum || ['_', '.', ':', '#', '-'].contains c

/-- `_SAFE_WORKLOAD_ID_RE` without its anchors. -/
def matchesSafe : List Char → Bool
  | [] => false
  | c :: cs => c.isAlphanum && cs.length ≤ 127 && cs.all isSafeChar

/-- Two dots follow each other. -/
def hasDotDot : List Char → Bool
  | '.' :: '.' :: _ => true
  | _ :: cs => hasDotDot cs
  | [] => false

/-- The identifier names a sandbox. The end of the pattern also matches before a final newline. -/
def isSafeWorkloadId (workloadId : String) : Bool :=
  let cs := workloadId.toList
  (matchesSafe cs || (cs.getLast? = some '\n' && matchesSafe cs.dropLast)) && !hasDotDot cs

/-! ## The runtime -/

/-- A `GenericSubprocessRuntime`: the requests it has received. -/
structure Runtime where
  checkpointRequested : Bool := false
  cancelRequested : Bool := false
  deriving DecidableEq

/-- The runtime declares that it cannot checkpoint. -/
def supportsCheckpointing : Bool := false

/-- The name of the runtime's type. -/
def runtimeType : String := "GenericSubprocessRuntime"

/-- How the process of a runtime ends: it exits with its output, it fails to start or to
communicate, there was no command, or an error was raised before the process was started. -/
inductive ProcessEnd
  | exited (returncode : ℤ) (stdout stderr : String)
  | failed (message : String)
  | noCommand
  | raised (message : String)
  deriving DecidableEq

/-- The last characters of a text. -/
def tail (n : ℕ) (text : String) : String :=
  String.ofList (text.toList.drop (text.toList.length - n))

/-- The last characters of an output, if there is any. -/
def snippet (text : String) : Option String := if text = "" then none else some (tail 1000 text)

/-- What a runtime returns: success, and the ends of its outputs. -/
structure RuntimeResult where
  success : Bool
  stdoutSnippet : Option String
  stderrSnippet : Option String
  deriving DecidableEq

/-- What the runtime returns or raises when its process has ended. -/
def Runtime.result (rt : Runtime) : ProcessEnd → Except String RuntimeResult
  | .exited returncode stdout stderr =>
    if rt.cancelRequested then .ok ⟨false, snippet stdout, some "Execution cancelled by request"⟩
    else .ok ⟨returncode = 0 || rt.checkpointRequested, snippet stdout, snippet stderr⟩
  | .failed message =>
    if rt.checkpointRequested then .ok ⟨true, none, some "Checkpointed"⟩
    else if rt.cancelRequested then .ok ⟨false, none, some "Cancelled"⟩
    else .ok ⟨false, none, some ("Execution failed: " ++ message)⟩
  | .noCommand =>
    .ok ⟨false, none, some "No execution_spec or command specified in workload parameters"⟩
  | .raised message => .error message

/-! ## The result of an execution -/

/-- The explicit timeout of a workload. -/
def timeoutSeconds (spec : WorkloadSpec) : Option PyFloat :=
  spec.executionSpec.bind (·.timeoutSeconds)

/-- How the runtime phase ends. -/
structure Outcome where
  result : RuntimeResult
  timedOut : Bool := false
  cancelled : Bool := false
  deriving DecidableEq

/-- The runtime has returned or raised. -/
def returned : Except String RuntimeResult → Outcome
  | .ok r => { result := r }
  | .error message => { result := ⟨false, none, some ("Runtime error: " ++ message)⟩ }

/-- The timeout has passed. -/
def timedOut (cfg : Config) (spec : WorkloadSpec) : Outcome where
  result := ⟨false, none, some ("Execution timed out after " ++
    ((timeoutSeconds spec).elim "None" cfg.floatRepr) ++ " seconds")⟩
  timedOut := true

/-- The task was cancelled. -/
def cancelled : Outcome where
  result := ⟨false, none, some "Execution cancelled by request"⟩
  cancelled := true

/-- Add to the errors of an execution. -/
def addError (stderr : Option String) (message : String) : Option String :=
  some (stderr.getD "" ++ message)

/-- A checkpoint was requested from a runtime that does not support it. -/
def checkpointUnsupported (rt : Runtime) : Bool := rt.checkpointRequested && !supportsCheckpointing

/-- A requested checkpoint that the runtime does not support is a failure. -/
def checkpointed (rt : Runtime) (r : RuntimeResult) : RuntimeResult :=
  if checkpointUnsupported rt then
    { r with
      success := false
      stderrSnippet := addError r.stderrSnippet ("\nCheckpoint was requested but this runtime (" ++
        runtimeType ++ ") does not support checkpointing (supports_checkpointing=False); " ++
        "execution was aborted and must be retried as a fresh attempt rather than resumed.") }
  else r

/-- The outputs are ingested: the execution has succeeded so far. -/
def ingests (rt : Runtime) (o : Outcome) : Bool :=
  (checkpointed rt o.result).success && !o.cancelled

/-- What was stored of the outputs, and the error that stopped it. -/
structure Ingestion where
  hashes : List String := []
  sizes : List (String × ℤ) := []
  error : Option String := none
  deriving DecidableEq

/-- How long the parts of an execution have taken. -/
structure Durations where
  execution : PyFloat := 0
  staging : PyFloat := 0
  ingestion : PyFloat := 0
  verification : PyFloat := 0
  transfer : PyFloat := 0
  deriving DecidableEq

/-- The ingestion of the outputs, unless there is none. -/
def ingested (rt : Runtime) (o : Outcome) (ing : Ingestion) : RuntimeResult :=
  let r := checkpointed rt o.result
  match ingests rt o, ing.error with
  | true, some message =>
    { r with
      success := false
      stderrSnippet := addError r.stderrSnippet ("\nOutput ingestion failed: " ++ message) }
  | _, _ => r

/-- The number of outputs is too small. A value that is no number cannot be compared. -/
def verificationFails (spec : WorkloadSpec) (contextual : Bool) (r : RuntimeResult) (outputs : ℕ) :
    Except String Bool :=
  if r.success && !contextual then
    fewerThan outputs ((spec.parameters.get? "expected_output_count").getD .null)
  else .ok false

/-- The category of a failure; earlier causes take precedence. -/
def failureCategory (rt : Runtime) (o : Outcome) (ingestionFailed verificationFailed : Bool) :
    FailureCategory :=
  if checkpointUnsupported rt then .workerUnavailable
  else if o.timedOut then .executionTimeout
  else if ingestionFailed then .temporaryCasFailure
  else if verificationFailed then .artifactVerificationFailure
  else .executionFailure

/-- The message of a failed execution. -/
def failureMessage (r : RuntimeResult) : String :=
  "Execution failed" ++
    ((r.stderrSnippet.filter (· ≠ "")).elim "" fun e => "\nstderr:\n" ++ tail 1500 e) ++
    ((r.stdoutSnippet.filter (· ≠ "")).elim "" fun e => "\nstdout:\n" ++ tail 1000 e)

/-- The end of `execute_workload`: the result of an execution, or the error it raises. As the
runtime does not support checkpoints, none is ever reported. -/
def finish (cfg : Config) (spec : WorkloadSpec) (contextual : Bool) (rt : Runtime) (o : Outcome)
    (ing : Ingestion) (times : Durations) : Except String WorkloadExecutionResult := do
  let ing := if ingests rt o then ing else {}
  let outputs := ing.hashes.toFinset
  let r := ingested rt o ing
  let tooFew ← verificationFails spec contextual r outputs.card
  let r := if tooFew then
      { r with
        success := false
        stderrSnippet := addError r.stderrSnippet
          ("\nOutput verification failed: expected at least " ++
            numberText cfg.floatRepr ((spec.parameters.get? "expected_output_count").getD .null) ++
            " output file(s), found " ++ toString outputs.card ++ ".") }
    else r
  return {
    workloadId := spec.workloadId
    workerId := cfg.workerId
    success := r.success
    outputAssetHashes := outputs
    outputAssetSizes := ing.sizes.foldl (fun d e => d.set e.1 e.2) ∅
    executionDurationSeconds := times.execution
    stagingDurationSeconds := times.staging
    outputIngestionDurationSeconds := times.ingestion
    verificationDurationSeconds := times.verification
    transferDurationSeconds := times.transfer
    errorMessage := if r.success then none else some (failureMessage r)
    stdoutSnippet := r.stdoutSnippet
    stderrSnippet := r.stderrSnippet
    failureCategory :=
      if r.success then none else some (failureCategory rt o ing.error.isSome tooFew) }

/-- A result without an execution. -/
def failedResult (cfg : Config) (workloadId message : String) (category : FailureCategory)
    (staging transfer : PyFloat := 0) : WorkloadExecutionResult where
  workloadId := workloadId
  workerId := cfg.workerId
  success := false
  outputAssetHashes := ∅
  executionDurationSeconds := 0
  stagingDurationSeconds := staging
  transferDurationSeconds := transfer
  errorMessage := some message
  failureCategory := some category

theorem result_cancelled {rt : Runtime} {e : ProcessEnd} {r : RuntimeResult}
    (hc : rt.cancelRequested = true) (h : rt.result e = .ok r) (hr : r.success = true) :
    rt.checkpointRequested = true := by
  cases e with
  | exited returncode stdout stderr =>
    simp only [Runtime.result, hc, if_true, Except.ok.injEq] at h
    rw [← h] at hr
    cases hr
  | failed message =>
    simp only [Runtime.result, hc, if_true] at h
    split_ifs at h with hcheck
    · exact hcheck
    · rw [← Except.ok.inj h] at hr
      cases hr
  | noCommand =>
    rw [← Except.ok.inj h] at hr
    cases hr
  | raised message => cases h

theorem checkpointed_success {rt : Runtime} {r : RuntimeResult}
    (h : (checkpointed rt r).success = true) :
      r.success = true ∧ rt.checkpointRequested = false := by
  unfold checkpointed at h
  split_ifs at h with hu
  refine ⟨h, ?_⟩
  simpa [checkpointUnsupported, supportsCheckpointing] using hu

theorem ingested_success {rt : Runtime} {o : Outcome} {ing : Ingestion}
    (h : (ingested rt o ing).success = true) : (checkpointed rt o.result).success = true := by
  unfold ingested at h
  dsimp only at h
  split at h
  · cases h
  · exact h

/-- **An execution succeeds only if its runtime has succeeded and no checkpoint was requested.** -/
theorem finish_success {cfg : Config} {spec : WorkloadSpec} {contextual : Bool} {rt : Runtime}
    {o : Outcome} {ing : Ingestion} {times : Durations} {r : WorkloadExecutionResult}
    (h : finish cfg spec contextual rt o ing times = .ok r) (hr : r.success = true) :
    o.result.success = true ∧ rt.checkpointRequested = false := by
  unfold finish at h
  dsimp only [bind, Except.bind, pure, Except.pure] at h
  split at h
  · cases h
  · rename_i tooFew _
    have he := congrArg WorkloadExecutionResult.success (Except.ok.inj h)
    rw [hr] at he
    cases tooFew with
    | true => cases he
    | false => exact checkpointed_success (ingested_success he)

end Aidars.Worker
