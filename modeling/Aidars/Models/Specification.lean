import Aidars.Models.Validation
import Aidars.Models.Workload
import Mathlib.Algebra.Order.Field.Rat
import Mathlib.Data.Finset.Image

/-!
# Specifications

What constructing a `WorkloadSpec` checks: the bounds of its fields, its hashes, its affinity, and
the size of its parameters as JSON.
-/

namespace Aidars

/-- The stored value of an affinity mode. -/
def AffinityMode.value : AffinityMode → String
  | none => "none"
  | sameWorker => "same_worker"
  | differentWorker => "different_worker"
  | sameTag => "same_tag"
  | differentTag => "different_tag"

/-- A mode by its value. -/
def AffinityMode.named (s : String) : Option AffinityMode :=
  [AffinityMode.none, .sameWorker, .differentWorker, .sameTag, .differentTag].find? (·.value = s)

/-- The most bytes that the encoded parameters of a workload may have. -/
def MAX_WORKLOAD_PARAMETERS_BYTES : ℕ := 65536

namespace Json

/-- The length of a character in an ASCII JSON text. -/
def escapedLength (c : Char) : ℕ :=
  if c = '"' ∨ c = '\\' ∨ c = '\n' ∨ c = '\r' ∨ c = '\t' ∨ c = '\x08' ∨ c = '\x0c' then 2
  else if ' ' ≤ c ∧ c ≤ '~' then 1
  else if c.toNat < 0x10000 then 6
  else 12

/-- The length of a text in JSON, with its quotes. -/
def textLength (s : String) : ℕ := 2 + (s.toList.map escapedLength).sum

variable (floatRepr : PyFloat → String)

mutual

/-- The length of the JSON text of a value; `floatRepr` writes a float. -/
def encodedSize : Json → ℕ
  | .null => 4
  | .bool b => if b then 4 else 5
  | .int n => (toString n).length
  | .float x => (floatRepr x).length
  | .str s => textLength s
  | .arr items => 2 + itemsSize items + 2 * (items.length - 1)
  | .obj entries => 2 + entriesSize entries + 2 * (entries.length - 1)

/-- The length of the items of a list, without separators. -/
def itemsSize : List Json → ℕ
  | [] => 0
  | j :: l => encodedSize j + itemsSize l

/-- The length of the entries of an object, without the separators between them. -/
def entriesSize : List (String × Json) → ℕ
  | [] => 0
  | (k, j) :: l => textLength k + 2 + encodedSize j + entriesSize l

end

end Json

namespace ExecutionSpec

/-- Command and executable stand in for each other when one of them is missing. -/
def unifyCommandExecutable (e : ExecutionSpec) : ExecutionSpec :=
  let cmd := e.command.getD ""
  if cmd ≠ "" ∧ e.executable = "" then { e with executable := cmd }
  else if e.executable ≠ "" ∧ cmd = "" then { e with command := some e.executable }
  else e

/-- Construct an execution specification. -/
def validate (e : ExecutionSpec) : Option ExecutionSpec :=
  if e.timeoutSeconds.all (PyFloat.lt 0) then some e.unifyCommandExecutable else none

/-- Construct an optional execution specification. -/
def validateOption : Option ExecutionSpec → Option (Option ExecutionSpec)
  | none => some none
  | some e => e.validate.map some

end ExecutionSpec

namespace WorkloadSpec

variable (floatRepr : PyFloat → String)

/-- Validate a set of hashes. -/
def validateHashes (hashes : Finset String) : Option (Finset String) :=
  if ∀ h ∈ hashes, (validateSha256Hex h).toOption.isSome then
    some (hashes.image fun h => (validateSha256Hex h).toOption.getD h)
  else none

/-- The bounds of the fields. -/
def inBounds (spec : WorkloadSpec) : Bool :=
  1 ≤ spec.workloadId.length && spec.workloadId.length ≤ 128 &&
    spec.jobId.all (·.length ≤ 128) &&
    1 ≤ spec.taskType.length && spec.taskType.length ≤ 64 &&
    1 ≤ spec.minCpuCores && 1 ≤ spec.minRamBytes &&
    PyFloat.lt 0 spec.estimatedDurationSeconds && spec.deadlineAtUtc.all (PyFloat.lt 0) &&
    spec.affinityGroupId.all (·.length ≤ 128) && spec.affinityTagKey.all (·.length ≤ 128) &&
    spec.maxCostPerHour.all (PyFloat.le 0) && spec.dependsOn.length ≤ 1000

/-- The parameters are not too large. -/
def parametersFit (spec : WorkloadSpec) : Bool :=
  (Json.obj spec.parameters.entries).encodedSize floatRepr ≤ MAX_WORKLOAD_PARAMETERS_BYTES

/-- Affinity names its group and its tag, and dependencies are distinct and not the workload
itself. -/
def validateAffinity (spec : WorkloadSpec) : Bool :=
  (spec.affinityMode = .none || spec.affinityGroupId.any (· ≠ "")) &&
    (!(spec.affinityMode = .sameTag || spec.affinityMode = .differentTag) ||
      spec.affinityTagKey.any (· ≠ "")) &&
    spec.workloadId ∉ spec.dependsOn && spec.dependsOn.Nodup

/-- The checks that read the fields as they are. -/
def constructible (spec : WorkloadSpec) : Bool :=
  spec.inBounds && spec.parametersFit floatRepr && spec.validateAffinity

/-- Construct a specification: check its fields and normalise its hashes. -/
def validate (spec : WorkloadSpec) : Option WorkloadSpec := do
  let executionSpec ← ExecutionSpec.validateOption spec.executionSpec
  let inputAssetHashes ← validateHashes spec.inputAssetHashes
  let spec := { spec with executionSpec, inputAssetHashes }
  if spec.constructible floatRepr then some spec else none

end WorkloadSpec

end Aidars
