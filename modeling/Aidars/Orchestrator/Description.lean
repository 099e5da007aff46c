import Aidars.Orchestrator.Membership
import Mathlib.Data.Int.ConditionallyCompleteOrder

/-!
# Execution descriptions

An adapter describes an execution by its shape and its workloads, and `validatePlan` checks the
description before it is submitted. The workloads of a pipeline may depend on each other:
`validateDependencyGraph` should accept them if and only if every dependency is one of them and none
depends on itself through others. It calls itself for each dependency, so that long chains of
dependencies come to the limit of the interpreter (`validateDependencyGraph_iff`).
-/

namespace Aidars.Orchestrator

/-- The output of an adapter. -/
structure ExecutionDescription where
  executionShape : ExecutionShape
  workloads : List WorkloadSpec
  requiredWorkerCount : ℤ := 1
  workloads_ne : workloads ≠ []
  count_mem : requiredWorkerCount ∈ Set.Icc (1 : ℤ) 64

/-- Why a description is rejected. -/
inductive PlanError
  | distributedNativeShape
  | workerCountOnlyForDistributedNative
  | singleMachineShape
  | pipelineShape
  | pipelineDependencies
  | dependencyGraph (e : DepthFirst.Error String)
  deriving DecidableEq

namespace ExecutionDescription

variable (framesLeft : ℕ) (d : ExecutionDescription)

/-- Check the shape and the number of workers. -/
def checkShape : Except PlanError Unit :=
  if d.executionShape = .distributedNative then
    if d.workloads.length ≠ 1 ∨ d.requiredWorkerCount < 2 then .error .distributedNativeShape
    else .ok ()
  else if d.requiredWorkerCount ≠ 1 then .error .workerCountOnlyForDistributedNative
  else if d.executionShape = .singleMachine ∧ d.workloads.length ≠ 1 then
    .error .singleMachineShape
  else .ok ()

/-- Check the dependencies of a pipeline. -/
def checkPipeline : Except PlanError Unit :=
  if d.workloads.length < 2 ∨ d.workloads.all (·.dependsOn = []) then .error .pipelineShape
  else if d.workloads.any fun w => w.dependsOn.any (· ∉ d.workloads.map (·.workloadId)) then
    .error .pipelineDependencies
  else
    match validateDependencyGraph framesLeft (SubmitCall.dependencies d.workloads) with
    | .error e => .error (.dependencyGraph e)
    | .ok _ => .ok ()

/-- Check a description. -/
def validatePlan : Except PlanError Unit :=
  match d.checkShape with
  | .error e => .error e
  | .ok _ => if d.executionShape = .pipeline then d.checkPipeline framesLeft else .ok ()

end ExecutionDescription

/-! ## The dependency graph -/

variable {specs : List WorkloadSpec}

/-- A workload of the list names another one as a dependency. -/
def Names (specs : List WorkloadSpec) (w v : String) : Prop :=
  ∃ spec ∈ specs, spec.workloadId = w ∧ v ∈ spec.dependsOn

/-- Every dependency is the identifier of a workload of the list. -/
def ClosedUnder (specs : List WorkloadSpec) : Prop :=
  ∀ spec ∈ specs, ∀ v ∈ spec.dependsOn, ∃ spec' ∈ specs, spec'.workloadId = v

theorem isSome_get?_dependencies (w : String) :
    ((SubmitCall.dependencies specs).get? w).isSome ↔ ∃ spec ∈ specs, spec.workloadId = w := by
  rw [Option.isSome_iff_ne_none, ne_eq, (get?_dependencies specs w).1, not_not, List.mem_map]

/-- With different identifiers the edges of the graph are the dependencies. -/
theorem edge_iff (hids : (specs.map (·.workloadId)).Nodup) (w v : String) :
    DepthFirst.Edge (SubmitCall.dependencies specs).get? w v ↔ Names specs w v := by
  unfold DepthFirst.Edge
  constructor
  · intro h
    cases hget : (SubmitCall.dependencies specs).get? w with
    | none =>
      rw [hget] at h
      cases h
    | some l =>
      rw [hget] at h
      obtain ⟨spec, hspec, hw, rfl⟩ := (get?_dependencies specs w).2 l hget
      exact ⟨spec, hspec, hw, h⟩
  · rintro ⟨spec, hspec, rfl, hv⟩
    obtain ⟨l, hget⟩ := Option.isSome_iff_exists.1
      ((isSome_get?_dependencies spec.workloadId).2 ⟨spec, hspec, rfl⟩)
    obtain ⟨spec', hspec', hw, rfl⟩ := (get?_dependencies specs _).2 l hget
    obtain rfl := List.inj_on_of_nodup_map hids hspec' hspec hw
    rwa [hget]

/-- The workloads are accepted if and only if every dependency is one of them and the dependencies
have no cycle. -/
def AcceptsExactly (framesLeft : ℕ) (specs : List WorkloadSpec) : Prop :=
  (∃ m, validateDependencyGraph framesLeft (SubmitCall.dependencies specs) = .ok m) ↔
    ClosedUnder specs ∧ Acyclic (Names specs)

/-- A chain of dependencies is too long for the calls that are left: as many workloads as calls, and
one more, each a dependency of the one before it, and none but the last reached earlier from a
workload or a dependency that is listed before. -/
def ChainTooLong (framesLeft : ℕ) (specs : List WorkloadSpec) : Prop :=
  DepthFirst.DeepIn (SubmitCall.dependencies specs).get? framesLeft (fun _ => False)
    (SubmitCall.dependencies specs).keys

/-- **Validation of the dependency graph.** The workloads of a list with different identifiers are
accepted as they should, unless they would be and have too long a chain. -/
theorem validateDependencyGraph_iff (hids : (specs.map (·.workloadId)).Nodup) (framesLeft : ℕ) :
    AcceptsExactly framesLeft specs ↔
      (ClosedUnder specs → Acyclic (Names specs) → ¬ ChainTooLong framesLeft specs) := by
  have hkeys : ∀ w, ((SubmitCall.dependencies specs).get? w).isSome ↔
      w ∈ (SubmitCall.dependencies specs).keys := fun w => by
    rw [Option.isSome_iff_exists, Dict.mem_keys]
  have hedges : DepthFirst.Edge (SubmitCall.dependencies specs).get? = Names specs := by
    funext w v
    exact propext (edge_iff hids w v)
  have hclosed : (∀ w v, Names specs w v → ((SubmitCall.dependencies specs).get? v).isSome) ↔
      ClosedUnder specs := by
    constructor
    · intro h spec hspec v hv
      exact (isSome_get?_dependencies v).1 (h _ v ⟨spec, hspec, rfl, hv⟩)
    · rintro h w v ⟨spec, hspec, -, hv⟩
      exact (isSome_get?_dependencies v).2 (h spec hspec v hv)
  unfold AcceptsExactly validateDependencyGraph
  rw [DepthFirst.validate_ok_iff hkeys, hedges, hclosed]
  show ((_ ∧ Acyclic (Names specs)) ∧ ¬ ChainTooLong framesLeft specs ↔ _) ↔ _
  rw [and_iff_left_iff_imp, and_imp]

/-- Two workloads share a third. -/
def sharedSample : List WorkloadSpec :=
  [{ sampleSpec "a" with dependsOn := ["b", "c"] }, { sampleSpec "b" with dependsOn := ["c"] },
    sampleSpec "c"]

/-- Two workloads that share a third need three calls. -/
theorem validateDependencyGraph_shared : AcceptsExactly 3 sharedSample := by
  have hids : (sharedSample.map (·.workloadId)).Nodup := by decide
  have hok : (validateDependencyGraph 3 (SubmitCall.dependencies sharedSample)).isOk := by
    decide +kernel
  refine (validateDependencyGraph_iff hids 3).2 fun hclosed hacyclic => ?_
  refine (validateDependencyGraph_iff hids 3).1 ?_ hclosed hacyclic
  exact iff_of_true (isOk_iff.1 hok) ⟨hclosed, hacyclic⟩

/-- With different identifiers the graph has the dependencies of each workload, in their order. -/
theorem entries_dependencies (hids : (specs.map (·.workloadId)).Nodup) :
    (SubmitCall.dependencies specs).entries = specs.map fun spec =>
      (spec.workloadId, spec.dependsOn) := by
  have hlist : SubmitCall.dependencies specs =
      Dict.ofList (specs.map fun spec => (spec.workloadId, spec.dependsOn)) := by
    rw [Dict.ofList, List.foldl_map]
    rfl
  rw [hlist, Dict.entries_ofList]
  rw [List.map_map]
  exact hids

/-! ## Chains -/

/-- The identifier of the workload at a place of a chain. -/
def chainId (i : ℕ) : String := String.ofList (List.replicate i 'a')

/-- The workload at a place of a chain. It depends on the next one, if there is one. -/
def chainSpec (n i : ℕ) : WorkloadSpec :=
  { sampleSpec (chainId i) with dependsOn := if i < n then [chainId (i + 1)] else [] }

/-- A chain of workloads. -/
def chain (n : ℕ) : List WorkloadSpec := (List.range (n + 1)).map (chainSpec n)

theorem chainId_injective : Function.Injective chainId := by
  intro i j h
  simpa [chainId] using congrArg (fun s => s.toList.length) h

theorem nodup_chain (n : ℕ) : ((chain n).map (·.workloadId)).Nodup := by
  rw [chain, List.map_map]
  exact List.nodup_range.map chainId_injective

theorem names_chain {n : ℕ} {w v : String} :
    Names (chain n) w v ↔ ∃ i < n, w = chainId i ∧ v = chainId (i + 1) := by
  constructor
  · rintro ⟨spec, hspec, rfl, hv⟩
    obtain ⟨i, -, rfl⟩ := List.mem_map.1 hspec
    unfold chainSpec at hv
    dsimp only at hv
    split_ifs at hv with hi
    · exact ⟨i, hi, rfl, List.mem_singleton.1 hv⟩
    · cases hv
  · rintro ⟨i, hi, rfl, rfl⟩
    refine ⟨chainSpec n i, List.mem_map_of_mem (List.mem_range.2 (by omega)), rfl, ?_⟩
    rw [chainSpec, if_pos hi]
    exact List.mem_singleton_self _

/-- **A chain that is longer than the calls that are left is not accepted**, though its dependencies
are workloads of it and have no cycle. -/
theorem not_acceptsExactly_chain (n : ℕ) : ¬ AcceptsExactly n (chain n) := by
  have hclosed : ClosedUnder (chain n) := by
    intro spec hspec v hv
    obtain ⟨i, hi, -, rfl⟩ := names_chain.1 ⟨spec, hspec, rfl, hv⟩
    exact ⟨chainSpec n (i + 1), List.mem_map_of_mem (List.mem_range.2 (by omega)), rfl⟩
  have hacyclic : Acyclic (Names (chain n)) := by
    have hlength : ∀ w v, Relation.TransGen (Names (chain n)) w v →
        w.toList.length < v.toList.length := by
      intro w v h
      induction h with
      | single h =>
        obtain ⟨i, -, rfl, rfl⟩ := names_chain.1 h
        simp [chainId]
      | tail _ h ih =>
        obtain ⟨i, -, rfl, rfl⟩ := names_chain.1 h
        refine ih.trans ?_
        simp [chainId]
    exact fun w h => (hlength w w h).false
  have hdeep : ∀ d i, i + d ≤ n →
      DepthFirst.Deep (SubmitCall.dependencies (chain n)).get? d (fun _ => False) (chainId i) := by
    intro d
    induction d with
    | zero => exact fun i _ => .zero
    | succ d ih =>
      intro i hi
      have hspec : ((SubmitCall.dependencies (chain n)).get? (chainId i)).getD [] =
          [chainId (i + 1)] := by
        have hentry : (chainId i, (chainSpec n i).dependsOn) ∈
            (SubmitCall.dependencies (chain n)).entries := by
          rw [entries_dependencies (nodup_chain n)]
          exact List.mem_map.2
            ⟨chainSpec n i, List.mem_map_of_mem (List.mem_range.2 (by omega)), rfl⟩
        rw [Dict.mem_entries.1 hentry, Option.getD_some, chainSpec]
        exact if_pos (by omega)
      refine @DepthFirst.Deep.succ _ _ _ _ _ _ [] _ id hspec ?_
      simpa using ih (i + 1) (by omega)
  have htop : ChainTooLong n (chain n) := by
    have hkeys : (SubmitCall.dependencies (chain n)).keys = (List.range (n + 1)).map chainId := by
      rw [Dict.keys, entries_dependencies (nodup_chain n), chain, List.map_map, List.map_map]
      rfl
    refine ⟨[], chainId 0, ((List.range n).map Nat.succ).map chainId, ?_, ?_⟩
    · rw [hkeys, List.range_succ_eq_map]
      rfl
    · simpa using hdeep n 0 (by omega)
  exact fun h => (validateDependencyGraph_iff (nodup_chain n) n).1 h hclosed hacyclic htop

/-- A chain of a thousand and one workloads. -/
theorem chain_not_accepted : ¬ AcceptsExactly 1000 (chain 1000) := not_acceptsExactly_chain 1000

end Aidars.Orchestrator
