import Aidars.Foundations.InvertedIndex
import Mathlib.Data.Rat.Defs

/-!
# The artifact registry

An artifact is a verified output of a workload, filed under the workload and the hash of its
content. The registry lists the artifacts of a hash in an index of its own (`byHash`), and marks
artifacts on their way out: available, eligible for collection, deleted, and gone.

`RegistryInv` says that the index lists exactly the artifacts that are there. Each operation has one
lemma that says what it does to every artifact.
-/

namespace Aidars

/-- Verification state of an artifact. -/
inductive ArtifactVerificationState
  | verified
  deriving DecidableEq, Repr

/-- Lifecycle of an artifact. -/
inductive ArtifactLifecycleState
  | created
  | available
  | gcEligible
  | deleted
  deriving DecidableEq, Repr

/-- An output of a workload. -/
structure Artifact where
  artifactId : String
  contentHash : String
  producerWorkloadId : String
  producerJobId : Option String
  createdAt : ℚ
  verificationState : ArtifactVerificationState
  lifecycleState : ArtifactLifecycleState
  storageLocation : String
  sizeBytes : Option ℤ := none
  deriving DecidableEq

/-- The identifier of an artifact. -/
def makeArtifactId (producerWorkloadId contentHash : String) : String :=
  producerWorkloadId ++ ":" ++ contentHash

/-- The artifacts by identifier, and the identifiers by hash. -/
structure ArtifactRegistry where
  artifacts : Dict String Artifact := ∅
  byHash : Dict String (PySet String) := ∅

namespace ArtifactRegistry

/-! ## Operations -/

/-- The outputs of a workload, to be recorded. -/
structure Outputs where
  producerWorkloadId : String
  producerJobId : Option String
  contentHashes : List String
  sizes : Dict String ℤ := ∅
  storageLocation : String := "cas"

/-- The artifact of an output. -/
def newArtifact (out : Outputs) (now : ℚ) (contentHash : String) : Artifact where
  artifactId := makeArtifactId out.producerWorkloadId contentHash
  contentHash := contentHash
  producerWorkloadId := out.producerWorkloadId
  producerJobId := out.producerJobId
  createdAt := now
  verificationState := .verified
  lifecycleState := .available
  storageLocation := out.storageLocation
  sizeBytes := out.sizes.get? contentHash

/-- Record one output. An artifact that is there already is left alone. -/
def recordOne (out : Outputs) (now : ℚ) (acc : ArtifactRegistry × List Artifact)
    (contentHash : String) : ArtifactRegistry × List Artifact :=
  let artifact := newArtifact out now contentHash
  if (acc.1.artifacts.get? artifact.artifactId).isSome then acc
  else
    ({ artifacts := acc.1.artifacts.set artifact.artifactId artifact
       byHash := InvertedIndex.add acc.1.byHash artifact.artifactId contentHash },
      acc.2 ++ [artifact])

/-- Record the outputs of a workload; returns the new artifacts. -/
def recordArtifacts (reg : ArtifactRegistry) (out : Outputs) (now : ℚ) :
    ArtifactRegistry × List Artifact :=
  out.contentHashes.foldl (recordOne out now) (reg, [])

/-- The artifacts in a state of their lifecycle. -/
def idsIn (reg : ArtifactRegistry) (st : ArtifactLifecycleState) : List String :=
  (reg.artifacts.values.filter (·.lifecycleState = st)).map (·.artifactId)

/-- The job of the artifact is known, and is not among the protected ones. -/
def unprotected (protectedJobIds : List String) (a : Artifact) : Bool :=
  a.producerJobId.any (· ∉ protectedJobIds)

/-- The available artifacts whose job is not protected. -/
def computeGcEligible (reg : ArtifactRegistry) (protectedJobIds : List String) : List String :=
  (reg.artifacts.values.filter fun a =>
    a.lifecycleState = .available && unprotected protectedJobIds a).map (·.artifactId)

/-- Move an artifact from one state of its lifecycle to another; says whether it was there. -/
def move (reg : ArtifactRegistry) (source target : ArtifactLifecycleState) (artifactId : String) :
    ArtifactRegistry × Bool :=
  match reg.artifacts.get? artifactId with
  | some a =>
    if a.lifecycleState = source then
      ({ reg with artifacts := reg.artifacts.set artifactId { a with lifecycleState := target } },
        true)
    else (reg, false)
  | none => (reg, false)

/-- Mark available artifacts as eligible for collection; returns how many were marked. -/
def markGcEligible (reg : ArtifactRegistry) (artifactIds : List String) : ArtifactRegistry × ℕ :=
  artifactIds.foldl (fun acc id =>
    let (reg, moved) := acc.1.move .available .gcEligible id
    (reg, if moved then acc.2 + 1 else acc.2)) (reg, 0)

/-- Mark an artifact that is eligible as deleted. -/
def markDeleted (reg : ArtifactRegistry) (artifactId : String) : ArtifactRegistry × Bool :=
  reg.move .gcEligible .deleted artifactId

/-- Drop an identifier from the index, and the hash when no identifier is left. -/
def discardHash (byHash : Dict String (PySet String)) (artifactId contentHash : String) :
    Dict String (PySet String) :=
  match byHash.get? contentHash with
  | none => byHash
  | some ids =>
    if ids.erase artifactId = ∅ then byHash.erase contentHash
    else byHash.set contentHash (ids.erase artifactId)

/-- Remove a deleted artifact; returns the changed count. -/
def purgeOne (acc : ArtifactRegistry × ℕ) (artifactId : String) : ArtifactRegistry × ℕ :=
  match acc.1.artifacts.get? artifactId with
  | some a =>
    if a.lifecycleState = .deleted then
      ({ artifacts := acc.1.artifacts.erase artifactId
         byHash := discardHash acc.1.byHash artifactId a.contentHash }, acc.2 + 1)
    else acc
  | none => acc

/-- Remove the deleted artifacts among the identifiers; returns how many were removed. -/
def purgeDeletedArtifacts (reg : ArtifactRegistry) (artifactIds : List String) :
    ArtifactRegistry × ℕ :=
  artifactIds.foldl purgeOne (reg, 0)

/-! ## The index -/

variable {reg reg' : ArtifactRegistry} {out : Outputs} {now : ℚ} {k id h : String} {a : Artifact}

/-- The artifact with this identifier has this hash. -/
def Holds (reg : ArtifactRegistry) (id h : String) : Prop :=
  ∃ a, reg.artifacts.get? id = some a ∧ a.contentHash = h

/-- Artifacts are filed under their identifiers, and the index lists exactly those of each hash. -/
structure RegistryInv (reg : ArtifactRegistry) : Prop where
  keyed : ∀ k a, reg.artifacts.get? k = some a → a.artifactId = k
  indexes : InvertedIndex.Indexes reg.byHash (Holds reg)

theorem RegistryInv.init : RegistryInv {} := by
  refine ⟨fun k a hk => ?_, InvertedIndex.Indexes.empty.congr fun id h => ?_⟩
  · cases hk
  · refine iff_of_false not_false ?_
    rintro ⟨a, ha, -⟩
    cases ha

/-! ## What the operations do -/

/-- **Recording an output.** -/
theorem recordOne_spec (out : Outputs) (now : ℚ) (hr : RegistryInv reg) (created : List Artifact)
    (h : String) :
    RegistryInv (recordOne out now (reg, created) h).1 ∧
      ∀ k, (recordOne out now (reg, created) h).1.artifacts.get? k =
        if k = makeArtifactId out.producerWorkloadId h ∧ reg.artifacts.get? k = none then
          some (newArtifact out now h)
        else reg.artifacts.get? k := by
  unfold recordOne
  dsimp only
  cases hold : reg.artifacts.get? (newArtifact out now h).artifactId with
  | some old =>
    refine ⟨by rw [Option.isSome_some, if_pos rfl]; exact hr, fun k => ?_⟩
    rw [Option.isSome_some, if_pos rfl, if_neg]
    rintro ⟨rfl, hnone⟩
    exact absurd (hold.symm.trans hnone) (Option.some_ne_none old)
  | none =>
    rw [Option.isSome_none, if_neg Bool.false_ne_true]
    refine ⟨⟨fun k a hk => ?_, (hr.indexes.add _ h).congr fun id h' => ?_⟩, fun k => ?_⟩
    · rw [Dict.get?_set] at hk
      split_ifs at hk with hkid
      · rw [← Option.some.inj hk, hkid]
      · exact hr.keyed k a hk
    · unfold Holds
      dsimp only
      rw [Dict.get?_set]
      by_cases hid : id = (newArtifact out now h).artifactId
      · rw [if_pos hid, hid, hold]
        simp [newArtifact, eq_comm]
      · rw [if_neg hid]
        simp [hid]
    · rw [Dict.get?_set]
      by_cases hk : k = (newArtifact out now h).artifactId
      · rw [if_pos hk, if_pos ⟨hk, hk ▸ hold⟩]
      · rw [if_neg hk, if_neg fun hboth => hk hboth.1]

/-- **Recording outputs adds available artifacts and leaves all others alone.** -/
theorem recordArtifacts_spec (hr : RegistryInv reg) (out : Outputs) (now : ℚ) :
    RegistryInv (reg.recordArtifacts out now).1 ∧
      ∀ k, (reg.recordArtifacts out now).1.artifacts.get? k = reg.artifacts.get? k ∨
        reg.artifacts.get? k = none ∧ ∃ h ∈ out.contentHashes,
          (reg.recordArtifacts out now).1.artifacts.get? k = some (newArtifact out now h) := by
  have key : ∀ (hashes : List String) (reg : ArtifactRegistry) (created : List Artifact),
      RegistryInv reg → RegistryInv (hashes.foldl (recordOne out now) (reg, created)).1 ∧
        ∀ k, (hashes.foldl (recordOne out now) (reg, created)).1.artifacts.get? k =
            reg.artifacts.get? k ∨
          reg.artifacts.get? k = none ∧ ∃ h ∈ hashes,
            (hashes.foldl (recordOne out now) (reg, created)).1.artifacts.get? k =
              some (newArtifact out now h) := by
    intro hashes
    induction hashes with
    | nil => exact fun reg created hr => ⟨hr, fun k => .inl rfl⟩
    | cons h hashes ih =>
      intro reg created hr
      obtain ⟨hone, hview⟩ := recordOne_spec out now hr created h
      obtain ⟨hrest, hviews⟩ := ih _ (recordOne out now (reg, created) h).2 hone
      refine ⟨hrest, fun k => ?_⟩
      rw [List.foldl_cons]
      have hk := hview k
      split_ifs at hk with hnew
      · -- the first output made the artifact, so the others leave it alone
        refine .inr ⟨hnew.2, h, List.mem_cons_self, ?_⟩
        rcases hviews k with hsame | ⟨hnone, -⟩
        · exact hsame.trans hk
        · exact absurd (hk.symm.trans hnone) (Option.some_ne_none _)
      · rcases hviews k with hsame | ⟨hnone, h', hmem, hsome⟩
        · exact .inl (hsame.trans hk)
        · exact .inr ⟨hk ▸ hnone, h', List.mem_cons_of_mem h hmem, hsome⟩
  exact key out.contentHashes reg [] hr

/-- An artifact after a move of its lifecycle. -/
def Moved (source target : ArtifactLifecycleState) (a : Artifact) : Artifact :=
  if a.lifecycleState = source then { a with lifecycleState := target } else a

/-- **A move of one artifact.** -/
theorem artifacts_move (reg : ArtifactRegistry) (source target : ArtifactLifecycleState)
    (id k : String) : (reg.move source target id).1.artifacts.get? k =
      if k = id then (reg.artifacts.get? k).map (Moved source target)
      else reg.artifacts.get? k := by
  unfold move
  split
  · rename_i a ha
    split_ifs with hst hk hk
    · rw [Dict.get?_set, if_pos hk, hk, ha, Option.map_some, Moved, if_pos hst]
    · rw [Dict.get?_set, if_neg hk]
    · rw [hk, ha, Option.map_some, Moved, if_neg hst]
    · rfl
  · rename_i hnone
    split_ifs with hk
    · rw [hk, hnone]
      rfl
    · rfl

theorem byHash_move (reg : ArtifactRegistry) (source target : ArtifactLifecycleState)
    (id : String) : (reg.move source target id).1.byHash = reg.byHash := by
  unfold move
  split
  · split_ifs <;> rfl
  · rfl

theorem identity_moved (source target : ArtifactLifecycleState) (a : Artifact) :
    (Moved source target a).artifactId = a.artifactId ∧
      (Moved source target a).contentHash = a.contentHash ∧
      (Moved source target a).producerJobId = a.producerJobId := by
  unfold Moved
  split_ifs <;> exact ⟨rfl, rfl, rfl⟩

/-- What changes the lifecycles alone keeps the invariant. -/
theorem RegistryInv.of_view (hr : RegistryInv reg) {f : String → Artifact → Artifact}
    (hf : ∀ k a, (f k a).artifactId = a.artifactId ∧ (f k a).contentHash = a.contentHash)
    (hview : ∀ k, reg'.artifacts.get? k = (reg.artifacts.get? k).map (f k))
    (hindex : reg'.byHash = reg.byHash) : RegistryInv reg' := by
  refine ⟨fun k a hk => ?_, ?_⟩
  · rw [hview] at hk
    obtain ⟨old, hold, rfl⟩ := Option.map_eq_some_iff.1 hk
    rw [(hf k old).1]
    exact hr.keyed k old hold
  · rw [hindex]
    refine hr.indexes.congr fun id h => ?_
    unfold Holds
    rw [hview]
    cases reg.artifacts.get? id with
    | none => simp
    | some a => simp [(hf id a).2]

theorem registryInv_move (hr : RegistryInv reg) (source target : ArtifactLifecycleState)
    (id : String) : RegistryInv (reg.move source target id).1 := by
  refine hr.of_view (f := fun k a => if k = id then Moved source target a else a)
    (fun k a => ?_) (fun k => ?_) (byHash_move reg source target id)
  · split_ifs
    · exact ⟨(identity_moved source target a).1, (identity_moved source target a).2.1⟩
    · exact ⟨rfl, rfl⟩
  · rw [artifacts_move]
    split_ifs
    · rfl
    · rw [Option.map_id']

theorem foldl_move_spec {σ : Type*} (reg_of : σ → ArtifactRegistry) (turn : σ → String → σ)
    (source target : ArtifactLifecycleState) (hne : target ≠ source)
    (hturn : ∀ s id, reg_of (turn s id) = ((reg_of s).move source target id).1)
    (ids : List String) (s : σ) (hr : RegistryInv (reg_of s)) :
    RegistryInv (reg_of (ids.foldl turn s)) ∧
      ∀ k, (reg_of (ids.foldl turn s)).artifacts.get? k =
        if k ∈ ids then ((reg_of s).artifacts.get? k).map (Moved source target)
        else (reg_of s).artifacts.get? k := by
  have htwice : ∀ a, Moved source target (Moved source target a) = Moved source target a := by
    intro a
    unfold Moved
    split_ifs <;> rfl
  induction ids generalizing s with
  | nil => exact ⟨hr, fun k => rfl⟩
  | cons id ids ih =>
    have hone : RegistryInv (reg_of (turn s id)) := by
      rw [hturn]
      exact registryInv_move hr source target id
    obtain ⟨hrest, hview⟩ := ih (turn s id) hone
    refine ⟨hrest, fun k => ?_⟩
    rw [List.foldl_cons, hview, hturn, artifacts_move]
    by_cases hk : k = id
    · rw [if_pos hk, if_pos (List.mem_cons.2 (.inl hk)), Option.map_map]
      split_ifs
      · exact congrArg (Option.map · _) (funext htwice)
      · rfl
    · have hmem : k ∈ id :: ids ↔ k ∈ ids := by rw [List.mem_cons, or_iff_right hk]
      rw [if_neg hk]
      simp only [hmem]

/-- **Marking artifacts as eligible.** -/
theorem markGcEligible_spec (hr : RegistryInv reg) (ids : List String) :
    RegistryInv (reg.markGcEligible ids).1 ∧
      ∀ k, (reg.markGcEligible ids).1.artifacts.get? k =
        if k ∈ ids then (reg.artifacts.get? k).map (Moved .available .gcEligible)
        else reg.artifacts.get? k :=
  foldl_move_spec (σ := ArtifactRegistry × ℕ) Prod.fst _ .available .gcEligible (by decide)
    (fun _ _ => rfl) ids (reg, 0) hr

/-- **Marking artifacts as deleted.** -/
theorem foldl_markDeleted_spec (hr : RegistryInv reg) (ids : List String) :
    RegistryInv (ids.foldl (fun reg id => (reg.markDeleted id).1) reg) ∧
      ∀ k, (ids.foldl (fun reg id => (reg.markDeleted id).1) reg).artifacts.get? k =
        if k ∈ ids then (reg.artifacts.get? k).map (Moved .gcEligible .deleted)
        else reg.artifacts.get? k :=
  foldl_move_spec (fun reg => reg) _ .gcEligible .deleted (by decide) (fun _ _ => rfl) ids reg hr

theorem discardHash_eq (hne : ∀ h ids, reg.byHash.get? h = some ids → ids ≠ ∅) (id h : String) :
    discardHash reg.byHash id h = InvertedIndex.discard reg.byHash id h := by
  unfold discardHash InvertedIndex.discard
  cases hids : reg.byHash.get? h with
  | none => rfl
  | some ids =>
    dsimp only
    rw [if_neg (hne h ids hids)]

/-- **Purging one artifact.** -/
theorem purgeOne_spec (hr : RegistryInv reg) (n : ℕ) (id : String) :
    RegistryInv (purgeOne (reg, n) id).1 ∧ ∀ k, (purgeOne (reg, n) id).1.artifacts.get? k =
      (reg.artifacts.get? k).filter fun a => !(decide (k = id) && a.lifecycleState = .deleted) := by
  have hsame : (∀ a, reg.artifacts.get? id = some a → a.lifecycleState ≠ .deleted) → ∀ k,
      reg.artifacts.get? k =
        (reg.artifacts.get? k).filter fun a =>
          !(decide (k = id) && a.lifecycleState = .deleted) := by
    intro hlive k
    cases hk : reg.artifacts.get? k with
    | none => rfl
    | some a =>
      refine (Option.filter_eq_some_iff.2 ⟨rfl, ?_⟩).symm
      by_cases hid : k = id
      · have := hlive a (hid ▸ hk)
        simp [hid, this]
      · simp [hid]
  unfold purgeOne
  dsimp only
  cases hid : reg.artifacts.get? id with
  | none => exact ⟨hr, hsame fun a ha => by rw [hid] at ha; cases ha⟩
  | some a =>
    dsimp only
    split_ifs with hdeleted
    · refine ⟨⟨fun k a' hk => ?_, ?_⟩, fun k => ?_⟩
      · rw [Dict.get?_erase] at hk
        split_ifs at hk
        exact hr.keyed k a' hk
      · dsimp only
        rw [discardHash_eq hr.indexes.ne_empty]
        refine (hr.indexes.discard id a.contentHash).congr fun id' h => ?_
        unfold Holds
        dsimp only
        rw [Dict.get?_erase]
        by_cases hk : id' = id
        · rw [if_pos hk, hk, hid]
          simp [eq_comm]
        · rw [if_neg hk]
          simp [hk]
      · rw [Dict.get?_erase]
        split_ifs with hk
        · rw [hk, hid]
          simp [Option.filter, hdeleted]
        · cases reg.artifacts.get? k <;> simp [hk, Option.filter]
    · refine ⟨hr, hsame fun a' ha' => ?_⟩
      rwa [← Option.some.inj (hid.symm.trans ha')]

/-- **Purging artifacts removes the deleted ones.** -/
theorem purgeDeletedArtifacts_spec (hr : RegistryInv reg) (ids : List String) :
    RegistryInv (reg.purgeDeletedArtifacts ids).1 ∧
      ∀ k, (reg.purgeDeletedArtifacts ids).1.artifacts.get? k =
        (reg.artifacts.get? k).filter fun a =>
          !(decide (k ∈ ids) && a.lifecycleState = .deleted) := by
  have key : ∀ (ids : List String) (reg : ArtifactRegistry) (n : ℕ), RegistryInv reg →
      RegistryInv (ids.foldl purgeOne (reg, n)).1 ∧
        ∀ k, (ids.foldl purgeOne (reg, n)).1.artifacts.get? k =
          (reg.artifacts.get? k).filter fun a =>
            !(decide (k ∈ ids) && a.lifecycleState = .deleted) := by
    intro ids
    induction ids with
    | nil =>
      intro reg n hr
      refine ⟨hr, fun k => ?_⟩
      cases hk : reg.artifacts.get? k <;> simp [hk, Option.filter]
    | cons id ids ih =>
      intro reg n hr
      obtain ⟨hone, hview⟩ := purgeOne_spec hr n id
      obtain ⟨hrest, hviews⟩ := ih _ (purgeOne (reg, n) id).2 hone
      refine ⟨hrest, fun k => ?_⟩
      rw [List.foldl_cons]
      refine (hviews k).trans ?_
      rw [hview, Option.filter_filter]
      refine congrArg (Option.filter · _) (funext fun a => ?_)
      by_cases hdeleted : a.lifecycleState = .deleted
      · by_cases hid : k = id <;> simp [hid, hdeleted]
      · simp [hdeleted]
  exact key ids reg 0 hr

theorem RegistryInv.mem_filter_map (hr : RegistryInv reg) {p : Artifact → Bool} :
    k ∈ (reg.artifacts.values.filter p).map (·.artifactId) ↔
      ∃ a, reg.artifacts.get? k = some a ∧ p a = true := by
  rw [List.mem_map]
  constructor
  · rintro ⟨a, ha, rfl⟩
    obtain ⟨hmem, hp⟩ := List.mem_filter.1 ha
    obtain ⟨k, hk⟩ := Dict.mem_values.1 hmem
    exact ⟨a, hr.keyed k a hk ▸ hk, hp⟩
  · rintro ⟨a, ha, hp⟩
    exact ⟨a, List.mem_filter.2 ⟨Dict.mem_values.2 ⟨k, ha⟩, hp⟩, hr.keyed k a ha⟩

end ArtifactRegistry

end Aidars
