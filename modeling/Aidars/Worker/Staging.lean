import Aidars.Cas.Adapter
import Aidars.Foundations.DepthFirst
import Aidars.Worker.Ledger
import Mathlib.Data.List.TakeWhile

/-!
# Staging of inputs

Before an execution starts, `execute_workload` puts each input asset into the inputs directory under
its hash: as a hard link to the object in the store, or as a copy where linking fails. A scene or a
script gets a second name with a suffix (`.blend`, `.py`), again linked or else copied; but this is
done where the asset was copied and not where it was linked.

`mem_inputs_iff` says which files there are in the end, and `staging_link_independent` when these
are the files that there would be without any link.
-/

namespace Aidars.Worker

/-- The places where a file is linked or copied. -/
inductive StageCall
  | asset (sha256 : String)
  | blend (sha256 : String)
  | py (sha256 : String)
  deriving DecidableEq

/-- Which links succeed where nothing is in their way, and which copies fail. -/
structure StageEnv where
  links : StageCall → Bool
  copyError : StageCall → Option String

/-- No link succeeds. -/
def StageEnv.unlinked (env : StageEnv) : StageEnv := { env with links := fun _ => false }

/-- The parameters that name a scene. -/
def sceneKeys : List String := ["scene_file_hash", "input_file_hash", "scene_hash"]

/-- The parameters that name a script. -/
def scriptKeys : List String := ["remap_script_hash", "script_hash"]

/-- One of the parameters has the hash. -/
def namesHash (spec : WorkloadSpec) (keys : List String) (sha256 : String) : Bool :=
  keys.any fun k => spec.parameters.get? k = some (.str sha256)

section Calls

variable (env : StageEnv) (call : StageCall) (inputs : Dict String Bytes) (dest : String)
  (data : Bytes)

/-- `os.link`, if it does not raise. -/
def link : Option (Dict String Bytes) :=
  if env.links call && (inputs.get? dest).isNone then some (inputs.set dest data) else none

/-- `shutil.copy2`. -/
def copy2 : Except String (Dict String Bytes) :=
  (env.copyError call).elim (.ok (inputs.set dest data)) .error

/-- Give a staged file a second name. -/
def stageAlias : Except String (Dict String Bytes) :=
  if (inputs.get? dest).isSome then .ok inputs
  else (link env call inputs dest data).elim (copy2 env call inputs dest data) .ok

/-- Give a staged file a second name if a parameter names it. -/
def stageNamed (named : Bool) : Except String (Dict String Bytes) :=
  if named then stageAlias env call inputs dest data else .ok inputs

end Calls

/-- Stage one asset: link it, or copy it with its other names. -/
def stageAsset (env : StageEnv) (spec : WorkloadSpec) (inputs : Dict String Bytes) (sha256 : String)
    (data : Bytes) : Except String (Dict String Bytes) :=
  match link env (.asset sha256) inputs sha256 data with
  | some inputs => .ok inputs
  | none => do
    let inputs ← copy2 env (.asset sha256) inputs sha256 data
    let inputs ← stageNamed env (.blend sha256) inputs (sha256 ++ ".blend") data
      (namesHash spec sceneKeys sha256)
    stageNamed env (.py sha256) inputs (sha256 ++ ".py") data (namesHash spec scriptKeys sha256)

/-- The bytes of an asset in the store. -/
def assetData? (cas : LocalCASAdapter) (sha256 : String) : Option Bytes :=
  match validateSha256Hex sha256 with
  | .ok normalized => cas.objects.get? normalized
  | .error _ => none

/-- How far the staging has come. -/
structure StageState where
  inputs : Dict String Bytes := ∅
  missing : List String := []
  failed : Option (String × String) := none
  deriving DecidableEq

/-- One turn of the loop. -/
def stageOne (env : StageEnv) (spec : WorkloadSpec) (cas : LocalCASAdapter) (s : StageState)
    (sha256 : String) : StageState :=
  if s.failed.isSome then s
  else match assetData? cas sha256 with
    | none => { s with missing := s.missing ++ [sha256] }
    | some data =>
      match stageAsset env spec s.inputs sha256 data with
      | .ok inputs => { s with inputs }
      | .error message => { s with failed := some (sha256, message) }

/-- Stage the input assets, in the order that the set is iterated. -/
def stageDependencies (env : StageEnv) (spec : WorkloadSpec) (cas : LocalCASAdapter)
    (order : List String) : Dict String Bytes × Staging :=
  let s := order.foldl (stageOne env spec cas) {}
  (s.inputs, match s.failed, s.missing with
    | some (sha256, message), _ => .stagingFailed sha256 message
    | none, [] => .staged
    | none, missing => .missingLocal missing)

/-! ## Names -/

variable {env : StageEnv} {spec : WorkloadSpec} {cas : LocalCASAdapter} {h h' name : String}
  {data d : Bytes} {inputs inputs' : Dict String Bytes}

theorem mem_dropWhile_of_not {p : Char → Bool} {c : Char} {l : List Char} (hc : c ∈ l)
    (hp : p c = false) : c ∈ l.dropWhile p := by
  rw [← l.takeWhile_append_dropWhile (p := p), List.mem_append] at hc
  refine hc.resolve_left fun hmem => ?_
  rw [List.mem_takeWhile_imp hmem] at hp
  cases hp

theorem mem_strip {c : Char} {l : List Char} (hc : c ∈ l) (hp : isSpace c = false) :
    c ∈ strip l := by
  unfold strip
  rw [List.mem_reverse]
  exact mem_dropWhile_of_not (List.mem_reverse.2 (mem_dropWhile_of_not hc hp)) hp

/-- A valid hash has no dot. -/
theorem dot_notMem_of_data (hdata : assetData? cas h = some data) : '.' ∉ h.toList := by
  intro hdot
  unfold assetData? at hdata
  split at hdata
  case h_2 => cases hdata
  case h_1 normalized hok =>
    have hdigest := validateSha256Hex_isDigest hok
    unfold validateSha256Hex at hok
    dsimp only at hok
    split_ifs at hok
    have hmem : '.' ∈ normalized.toList := by
      rw [← Except.ok.inj hok, String.toList_ofList, lower, List.mem_map]
      exact ⟨'.', mem_strip hdot (by decide), by decide⟩
    exact absurd (hdigest.2 _ hmem) (by decide)

theorem ne_append_dot (hdata : assetData? cas h = some data) (s : String) (suffix : String)
    (hsuffix : '.' ∈ suffix.toList) : h ≠ s ++ suffix := by
  rintro rfl
  refine dot_notMem_of_data hdata ?_
  rw [String.toList_append]
  exact List.mem_append_right _ hsuffix

theorem blend_ne_py (h h' : String) : h ++ ".blend" ≠ h' ++ ".py" := by
  intro heq
  have hlast := congrArg (fun s : String => s.toList.getLast?) heq
  simp [String.toList_append, List.getLast?_append] at hlast

theorem append_left_injective {h h' suffix : String} (heq : h ++ suffix = h' ++ suffix) :
    h = h' := by
  have hlist := congrArg String.toList heq
  rw [String.toList_append, String.toList_append] at hlist
  exact String.toList_inj.1 (List.append_cancel_right hlist)

/-! ## What is staged -/

/-- The names that a hash may be staged under. -/
def BelongsTo (h name : String) : Prop := name = h ∨ name = h ++ ".blend" ∨ name = h ++ ".py"

/-- The names that a hash is staged under. -/
def StagesAs (env : StageEnv) (spec : WorkloadSpec) (h name : String) : Prop :=
  name = h ∨ env.links (.asset h) = false ∧
    (name = h ++ ".blend" ∧ namesHash spec sceneKeys h = true ∨
      name = h ++ ".py" ∧ namesHash spec scriptKeys h = true)

theorem StagesAs.belongsTo (hs : StagesAs env spec h name) : BelongsTo h name := by
  rcases hs with rfl | ⟨-, ⟨rfl, -⟩ | ⟨rfl, -⟩⟩
  · exact .inl rfl
  · exact .inr (.inl rfl)
  · exact .inr (.inr rfl)

/-- A name belongs to one asset. -/
theorem owner_unique (hdata : assetData? cas h = some data) (hdata' : assetData? cas h' = some d)
    (ho : BelongsTo h name) (ho' : BelongsTo h' name) : h = h' := by
  rcases ho with rfl | rfl | rfl <;> rcases ho' with heq | heq | heq
  · exact heq
  · exact absurd heq (ne_append_dot hdata h' ".blend" (by decide))
  · exact absurd heq (ne_append_dot hdata h' ".py" (by decide))
  · exact absurd heq.symm (ne_append_dot hdata' h ".blend" (by decide))
  · exact append_left_injective heq
  · exact absurd heq (blend_ne_py h h')
  · exact absurd heq.symm (ne_append_dot hdata' h ".py" (by decide))
  · exact absurd heq.symm (blend_ne_py h' h)
  · exact append_left_injective heq

/-- What a new file adds to the directory. -/
theorem get?_set_fresh {dest : String} (hfresh : inputs.get? dest = none) :
    (inputs.set dest data).get? name = some d ↔
      name = dest ∧ d = data ∨ inputs.get? name = some d := by
  rw [Dict.get?_set]
  split_ifs with hname
  · subst hname
    rw [hfresh, Option.some_inj]
    simp only [true_and, reduceCtorEq, or_false]
    exact eq_comm
  · simp only [hname, false_and, false_or]

section Calls

variable {call : StageCall} {dest : String}

theorem copy2_ok (hok : copy2 env call inputs dest data = .ok inputs') :
    inputs' = inputs.set dest data := by
  unfold copy2 at hok
  cases hcopy : env.copyError call with
  | none =>
    rw [hcopy] at hok
    exact (Except.ok.inj hok).symm
  | some message =>
    rw [hcopy] at hok
    cases hok

theorem link_eq (hfresh : inputs.get? dest = none) :
    link env call inputs dest data =
      if env.links call then some (inputs.set dest data) else none := by
  simp [link, hfresh]

theorem stageAlias_ok (hfresh : inputs.get? dest = none)
    (hok : stageAlias env call inputs dest data = .ok inputs') :
    inputs' = inputs.set dest data := by
  unfold stageAlias at hok
  rw [hfresh, Option.isSome_none, if_neg Bool.false_ne_true, link_eq hfresh] at hok
  split_ifs at hok with hlink
  · exact (Except.ok.inj hok).symm
  · exact copy2_ok hok

theorem stageNamed_ok {named : Bool} (hfresh : inputs.get? dest = none)
    (hok : stageNamed env call inputs dest data named = .ok inputs') :
    inputs'.get? name = some d ↔
      (name = dest ∧ named = true) ∧ d = data ∨ inputs.get? name = some d := by
  unfold stageNamed at hok
  split_ifs at hok with hnamed
  · obtain rfl := stageAlias_ok hfresh hok
    rw [get?_set_fresh hfresh]
    simp [hnamed]
  · obtain rfl := Except.ok.inj hok
    simp [hnamed]

end Calls

/-- **What staging one asset adds**: the names it is staged under, all with its bytes. -/
theorem stageAsset_ok (hdata : assetData? cas h = some data)
    (hfresh : ∀ name, BelongsTo h name → inputs.get? name = none)
    (hok : stageAsset env spec inputs h data = .ok inputs') :
    inputs'.get? name = some d ↔ StagesAs env spec h name ∧ d = data ∨ inputs.get? name =
      some d := by
  have hself : inputs.get? h = none := hfresh h (.inl rfl)
  have hblend : inputs.get? (h ++ ".blend") = none := hfresh _ (.inr (.inl rfl))
  have hpy : inputs.get? (h ++ ".py") = none := hfresh _ (.inr (.inr rfl))
  have hne : h ++ ".blend" ≠ h := (ne_append_dot hdata h ".blend" (by decide)).symm
  have hne' : h ++ ".py" ≠ h := (ne_append_dot hdata h ".py" (by decide)).symm
  have hne'' : h ++ ".py" ≠ h ++ ".blend" := (blend_ne_py h h).symm
  unfold stageAsset at hok
  rw [link_eq hself] at hok
  unfold StagesAs
  cases hlink : env.links (.asset h) with
  | true =>
    rw [hlink] at hok
    obtain rfl := Except.ok.inj hok
    rw [get?_set_fresh hself]
    simp
  | false =>
    rw [hlink] at hok
    simp only [Bool.false_eq_true, if_false] at hok
    obtain ⟨inputs₁, hcopy, haliases⟩ := DepthFirst.bind_eq_ok.1 hok
    obtain rfl := copy2_ok hcopy
    obtain ⟨inputs₂, hscene, hscript⟩ := DepthFirst.bind_eq_ok.1 haliases
    have hblend₁ : (inputs.set h data).get? (h ++ ".blend") = none := by
      rw [Dict.get?_set, if_neg hne, hblend]
    have hpy₂ : inputs₂.get? (h ++ ".py") = none := by
      rw [Option.eq_none_iff_forall_ne_some]
      intro d hd
      rcases (stageNamed_ok hblend₁ hscene).1 hd with ⟨⟨heq, -⟩, -⟩ | hd
      · exact hne'' heq
      · rw [Dict.get?_set, if_neg hne', hpy] at hd
        cases hd
    rw [stageNamed_ok hpy₂ hscript, stageNamed_ok hblend₁ hscene, get?_set_fresh hself]
    constructor
    · rintro (⟨hname, rfl⟩ | ⟨hname, rfl⟩ | ⟨hname, rfl⟩ | hold)
      · exact .inl ⟨.inr ⟨rfl, .inr hname⟩, rfl⟩
      · exact .inl ⟨.inr ⟨rfl, .inl hname⟩, rfl⟩
      · exact .inl ⟨.inl hname, rfl⟩
      · exact .inr hold
    · rintro (⟨hname | ⟨-, hname | hname⟩, rfl⟩ | hold)
      · exact .inr (.inr (.inl ⟨hname, rfl⟩))
      · exact .inr (.inl ⟨hname, rfl⟩)
      · exact .inl ⟨hname, rfl⟩
      · exact .inr (.inr (.inr hold))

/-! ## The loop -/

section Loop

variable {order : List String} {s : StageState}

/-- No asset has been missing or has failed so far. -/
def StageState.Clean (s : StageState) : Prop := s.failed = none ∧ s.missing = []

/-- A turn after which nothing is missing has staged its asset. -/
theorem clean_stageOne (hclean : (stageOne env spec cas s h).Clean) :
    s.Clean ∧ ∃ data, assetData? cas h = some data ∧
      stageAsset env spec s.inputs h data = .ok (stageOne env spec cas s h).inputs := by
  unfold stageOne at hclean ⊢
  split at hclean
  case isTrue hfailed => simp [hclean.1] at hfailed
  case isFalse hfailed =>
    rw [if_neg hfailed]
    have hnone : s.failed = none := by simpa using hfailed
    split at hclean
    case h_1 hdata => simp [StageState.Clean] at hclean
    case h_2 data hdata =>
      split at hclean
      case h_1 inputs hok =>
        exact ⟨⟨hnone, hclean.2⟩, data, hdata, hok⟩
      case h_2 message hok => cases hclean.1

theorem clean_foldl (hclean : (order.foldl (stageOne env spec cas) s).Clean) : s.Clean := by
  induction order generalizing s with
  | nil => exact hclean
  | cons h order ih => exact (clean_stageOne (ih hclean)).1

theorem held_foldl (hclean : (order.foldl (stageOne env spec cas) s).Clean) :
    ∀ h ∈ order, ∃ data, assetData? cas h = some data := by
  induction order generalizing s with
  | nil => simp
  | cons h order ih =>
    obtain ⟨-, data, hdata, -⟩ := clean_stageOne (clean_foldl hclean)
    exact List.forall_mem_cons.2 ⟨⟨data, hdata⟩, ih hclean⟩

/-- **What is staged when the loop has ended well**: every asset under its names. -/
theorem mem_inputs_foldl (hnodup : order.Nodup)
    (hfresh : ∀ h ∈ order, ∀ name, BelongsTo h name → s.inputs.get? name = none)
    (hclean : (order.foldl (stageOne env spec cas) s).Clean) (name : String) (d : Bytes) :
    (order.foldl (stageOne env spec cas) s).inputs.get? name = some d ↔
      (∃ h ∈ order, StagesAs env spec h name ∧ assetData? cas h = some d) ∨
        s.inputs.get? name = some d := by
  induction order generalizing s with
  | nil => simp
  | cons h order ih =>
    rw [List.nodup_cons] at hnodup
    obtain ⟨-, data, hdata, hok⟩ := clean_stageOne (clean_foldl hclean)
    have hstep := fun name d => @stageAsset_ok env spec cas h name data d s.inputs _ hdata
      (hfresh h List.mem_cons_self) hok
    have hfresh' : ∀ h' ∈ order, ∀ name, BelongsTo h' name →
        (stageOne env spec cas s h).inputs.get? name = none := by
      intro h' hmem name hname
      obtain ⟨data', hdata'⟩ := held_foldl hclean h' (List.mem_cons_of_mem h hmem)
      rw [Option.eq_none_iff_forall_ne_some]
      intro d hd
      rcases (hstep name d).1 hd with ⟨hs, -⟩ | hd
      · have heq := owner_unique hdata hdata' hs.belongsTo hname
        exact hnodup.1 (heq ▸ hmem)
      · rw [hfresh h' (List.mem_cons_of_mem h hmem) name hname] at hd
        cases hd
    rw [List.foldl_cons, ih hnodup.2 hfresh' hclean, hstep, List.exists_mem_cons_iff, hdata,
      Option.some_inj, ← or_assoc, @eq_comm _ d, @or_comm (∃ h' ∈ order, _)]

end Loop

section Phase

variable {order : List String}

theorem clean_of_staged (hstaged : (stageDependencies env spec cas order).2 = .staged) :
    (order.foldl (stageOne env spec cas) {}).Clean := by
  unfold stageDependencies at hstaged
  dsimp only at hstaged
  split at hstaged
  · cases hstaged
  · exact ⟨by assumption, by assumption⟩
  · cases hstaged

/-- **The inputs directory after the staging phase.** -/
theorem mem_inputs_iff (hnodup : order.Nodup)
    (hstaged : (stageDependencies env spec cas order).2 = .staged) (name : String) (d : Bytes) :
    (stageDependencies env spec cas order).1.get? name = some d ↔
      ∃ h ∈ order, StagesAs env spec h name ∧ assetData? cas h = some d := by
  unfold stageDependencies
  rw [mem_inputs_foldl hnodup (fun _ _ _ _ => rfl) (clean_of_staged hstaged)]
  simp

theorem stageAlias_isOk {call : StageCall} {dest : String}
    (hcopy : ∀ call, env.copyError call = none) :
    ∃ inputs', stageAlias env call inputs dest data = .ok inputs' := by
  unfold stageAlias copy2
  rw [hcopy]
  split_ifs
  · exact ⟨inputs, rfl⟩
  · cases link env call inputs dest data with
    | none => exact ⟨_, rfl⟩
    | some inputs' => exact ⟨inputs', rfl⟩

theorem stageNamed_isOk {call : StageCall} {dest : String} (named : Bool)
    (hcopy : ∀ call, env.copyError call = none) :
    ∃ inputs', stageNamed env call inputs dest data named = .ok inputs' := by
  unfold stageNamed
  split_ifs
  · exact stageAlias_isOk hcopy
  · exact ⟨inputs, rfl⟩

theorem stageAsset_isOk (hcopy : ∀ call, env.copyError call = none) :
    ∃ inputs', stageAsset env spec inputs h data = .ok inputs' := by
  unfold stageAsset
  split
  · exact ⟨_, rfl⟩
  · have hself : copy2 env (.asset h) inputs h data = .ok (inputs.set h data) := by
      rw [copy2, hcopy]
      rfl
    obtain ⟨inputs₂, hscene⟩ := @stageNamed_isOk env data (inputs.set h data) (.blend h)
      (h ++ ".blend") (namesHash spec sceneKeys h) hcopy
    obtain ⟨inputs', hscript⟩ := @stageNamed_isOk env data inputs₂ (.py h) (h ++ ".py")
      (namesHash spec scriptKeys h) hcopy
    exact ⟨inputs', DepthFirst.bind_eq_ok.2 ⟨_, hself, DepthFirst.bind_eq_ok.2
      ⟨_, hscene, hscript⟩⟩⟩

theorem clean_foldl_of_held {s : StageState} (hcopy : ∀ call, env.copyError call = none)
    (hheld : ∀ h ∈ order, ∃ data, assetData? cas h = some data) (hs : s.Clean) :
    (order.foldl (stageOne env spec cas) s).Clean := by
  induction order generalizing s with
  | nil => exact hs
  | cons h order ih =>
    rw [List.forall_mem_cons] at hheld
    refine ih hheld.2 ?_
    obtain ⟨data, hdata⟩ := hheld.1
    obtain ⟨inputs', hok⟩ := @stageAsset_isOk env spec h data s.inputs hcopy
    unfold stageOne
    rw [if_neg (by simp [hs.1]), hdata]
    dsimp only
    rw [hok]
    exact hs

/-- The phase ends well when all assets are held and can be copied. -/
theorem staged_of_held (hcopy : ∀ call, env.copyError call = none)
    (hheld : ∀ h ∈ order, ∃ data, assetData? cas h = some data) :
    (stageDependencies env spec cas order).2 = .staged := by
  obtain ⟨hfailed, hmissing⟩ := @clean_foldl_of_held env spec cas order {} hcopy hheld ⟨rfl, rfl⟩
  unfold stageDependencies
  dsimp only
  rw [hfailed, hmissing]

/-! ## Links and copies -/

theorem append_ne_self {suffix : String} (hsuffix : suffix ≠ "") : h ++ suffix ≠ h := by
  intro heq
  have hlist := congrArg String.toList heq
  rw [String.toList_append, List.append_right_eq_self, String.toList_eq_nil_iff] at hlist
  exact hsuffix hlist

/-- An asset has the same names without links just when it is not a scene or script that is
linked. -/
theorem stagesAs_unlinked_iff :
    (∀ name, StagesAs env spec h name ↔ StagesAs env.unlinked spec h name) ↔
      (env.links (.asset h) = true →
        namesHash spec sceneKeys h = false ∧ namesHash spec scriptKeys h = false) := by
  constructor
  · intro hsame hlink
    have hnot : ∀ suffix, suffix ≠ "" → ¬ StagesAs env.unlinked spec h (h ++ suffix) := by
      intro suffix hsuffix hs
      rcases (hsame _).2 hs with heq | ⟨hfalse, -⟩
      · exact append_ne_self hsuffix heq
      · rw [hlink] at hfalse
        cases hfalse
    constructor
    · rw [← Bool.not_eq_true]
      exact fun hscene => hnot ".blend" (by decide) (.inr ⟨rfl, .inl ⟨rfl, hscene⟩⟩)
    · rw [← Bool.not_eq_true]
      exact fun hscript => hnot ".py" (by decide) (.inr ⟨rfl, .inr ⟨rfl, hscript⟩⟩)
  · intro hnamed name
    cases hlink : env.links (.asset h) with
    | false => simp [StagesAs, StageEnv.unlinked, hlink]
    | true => simp [StagesAs, hnamed hlink]

theorem inputs_eq_iff {order' : List String} (hnodup : order.Nodup) (hnodup' : order'.Nodup)
    (hset : ∀ h, h ∈ order ↔ h ∈ order')
    (hheld : ∀ h ∈ order, ∃ data, assetData? cas h = some data)
    (hstaged : (stageDependencies env spec cas order).2 = .staged)
    (hstaged' : (stageDependencies env.unlinked spec cas order').2 = .staged) :
    (∀ name, (stageDependencies env spec cas order).1.get? name =
        (stageDependencies env.unlinked spec cas order').1.get? name) ↔
      ∀ h ∈ order, ∀ name, StagesAs env spec h name ↔ StagesAs env.unlinked spec h name := by
  have hmem := mem_inputs_iff hnodup hstaged
  have hmem' := mem_inputs_iff hnodup' hstaged'
  constructor
  · intro heq h hh name
    obtain ⟨data, hdata⟩ := hheld h hh
    constructor
    · intro hs
      have hget := (hmem name data).2 ⟨h, hh, hs, hdata⟩
      obtain ⟨h', -, hs', hdata'⟩ := (hmem' name data).1 (heq name ▸ hget)
      rwa [owner_unique hdata hdata' hs.belongsTo hs'.belongsTo]
    · intro hs
      have hget := (hmem' name data).2 ⟨h, (hset h).1 hh, hs, hdata⟩
      obtain ⟨h', -, hs', hdata'⟩ := (hmem name data).1 ((heq name).symm ▸ hget)
      rwa [owner_unique hdata hdata' hs.belongsTo hs'.belongsTo]
  · intro hsame name
    ext d
    rw [hmem, hmem']
    constructor
    · rintro ⟨h, hh, hs, hdata⟩
      exact ⟨h, (hset h).1 hh, (hsame h hh name).1 hs, hdata⟩
    · rintro ⟨h, hh, hs, hdata⟩
      exact ⟨h, (hset h).2 hh, (hsame h ((hset h).2 hh) name).2 hs, hdata⟩

/-- **When staging does not depend on links.** The phase ends well for every pattern of links, and
leaves the files that it leaves without any link just when no asset that is linked is named as a
scene or a script. -/
theorem staging_link_independent (env : StageEnv) (spec : WorkloadSpec) (cas : LocalCASAdapter)
    (order order' : List String) (hnodup : order.Nodup) (hnodup' : order'.Nodup)
    (horder : order.toFinset = spec.inputAssetHashes)
    (horder' : order'.toFinset = spec.inputAssetHashes)
    (hheld : ∀ h ∈ spec.inputAssetHashes, ∃ data, assetData? cas h = some data) :
    ((∀ call, env.copyError call = none) →
      (stageDependencies env spec cas order).2 = .staged ∧
        (stageDependencies env.unlinked spec cas order').2 = .staged) ∧
    ((stageDependencies env spec cas order).2 = .staged →
      (stageDependencies env.unlinked spec cas order').2 = .staged →
      ((∀ name, (stageDependencies env spec cas order).1.get? name =
          (stageDependencies env.unlinked spec cas order').1.get? name) ↔
        ∀ h ∈ spec.inputAssetHashes, env.links (.asset h) = true →
          namesHash spec sceneKeys h = false ∧ namesHash spec scriptKeys h = false)) := by
  have hmem : ∀ h, h ∈ order ↔ h ∈ spec.inputAssetHashes := fun h => by
    rw [← horder, List.mem_toFinset]
  have hmem' : ∀ h, h ∈ order' ↔ h ∈ spec.inputAssetHashes := fun h => by
    rw [← horder', List.mem_toFinset]
  constructor
  · intro hcopy
    exact ⟨staged_of_held hcopy fun h hh => hheld h ((hmem h).1 hh),
      @staged_of_held env.unlinked spec cas order' hcopy fun h hh => hheld h ((hmem' h).1 hh)⟩
  · intro hstaged hstaged'
    rw [inputs_eq_iff hnodup hnodup' (fun h => (hmem h).trans (hmem' h).symm)
      (fun h hh => hheld h ((hmem h).1 hh)) hstaged hstaged']
    simp only [stagesAs_unlinked_iff, hmem]

end Phase

/-! ## Samples -/

/-- The hash of a scene. -/
def sceneHash : String := "ca978112ca1bbdcafac231b39a23dc4da786eff8147c4e72b9807785afee48bb"

/-- A store that holds the scene. -/
def sceneStore : LocalCASAdapter := { objects := (∅ : Dict String Bytes).set sceneHash [97] }

/-- A workload that names the scene, or none that does. -/
def sceneSpec (named : Bool) : WorkloadSpec :=
  { workloadId := "w", taskType := "render", inputAssetHashes := {sceneHash},
    parameters := if named then (∅ : Dict String Json).set "scene_file_hash" (.str sceneHash)
      else ∅ }

/-- Every link succeeds. -/
def linkedEnv : StageEnv := ⟨fun _ => true, fun _ => none⟩

theorem sceneStore_holds (named : Bool) :
    ∀ h ∈ (sceneSpec named).inputAssetHashes, ∃ data, assetData? sceneStore h = some data := by
  intro h hh
  obtain rfl := Finset.mem_singleton.1 hh
  exact ⟨[97], by decide +kernel⟩

/-- An asset that no parameter names is staged alike by a link and by a copy. -/
theorem staging_link_independent_unnamed :
    (stageDependencies linkedEnv (sceneSpec false) sceneStore [sceneHash]).1.get? sceneHash =
      (stageDependencies linkedEnv.unlinked (sceneSpec false) sceneStore [sceneHash]).1.get?
        sceneHash := by
  obtain ⟨hstaged, hiff⟩ := staging_link_independent linkedEnv (sceneSpec false) sceneStore
    [sceneHash] [sceneHash] (List.nodup_singleton _) (List.nodup_singleton _) rfl rfl
    (sceneStore_holds false)
  refine (hiff (hstaged fun _ => rfl).1 (hstaged fun _ => rfl).2).2 ?_ _
  intro h _ _
  exact ⟨rfl, rfl⟩

/-- The inputs do not depend on links. -/
def LinkIndependent : Prop :=
  ∀ (env : StageEnv) (spec : WorkloadSpec) (cas : LocalCASAdapter) (order : List String),
    order.Nodup → order.toFinset = spec.inputAssetHashes →
    (∀ h ∈ spec.inputAssetHashes, ∃ data, assetData? cas h = some data) →
    (∀ call, env.copyError call = none) →
    ∀ name, (stageDependencies env spec cas order).1.get? name =
      (stageDependencies env.unlinked spec cas order).1.get? name

/-- A scene that is linked has no name with a suffix. -/
theorem linked_scene_unnamed : ¬ LinkIndependent := by
  intro hclaim
  have heq := hclaim linkedEnv (sceneSpec true) sceneStore [sceneHash] (List.nodup_singleton _) rfl
    (sceneStore_holds true) (fun _ => rfl) (sceneHash ++ ".blend")
  exact absurd heq (by decide +kernel)

end Aidars.Worker
