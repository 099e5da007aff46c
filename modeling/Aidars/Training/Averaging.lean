import Aidars.Foundations.NestedDict
import Aidars.Foundations.WeightedMean

/-!
# Averaging checkpoints

Checkpoints of one format are averaged leaf by leaf along the keys of the first of them. An
`Averaging` is what a format does with a leaf, with the facts that make the averages what they are:
a number of the averaged leaf is the sum of the weighted numbers (`rule_value`), and neither the
order of the checkpoints nor the numbers of the first leaf matter (`rule_perm`, `rule_alike`).

`fedavg` is the recursion the formats share. `FedavgLaws` says what holds of its result, at every
level of the dictionaries and whatever the checkpoints lack: the keys are those of the first
(`keys`), the numbers are weighted means that lie between two of the contributed numbers (`mean`),
and permuted checkpoints have the same average as long as the first is replaced by one that differs
in averaged numbers only (`perm`). `fedavgLaws` proves the laws for every averaging, and
`exists_fedavg` says when there is a result.
-/

namespace Aidars.Training

open NestedDict WeightedMean

variable {L : Type*}

/-- A checkpoint: a dictionary in which no key occurs twice. -/
structure Checkpoint (L : Type*) where
  dict : NestedDict L
  distinct : dict.Distinct

/-- What a format does with the leaves of its checkpoints. -/
structure Averaging (L : Type*) where
  /-- The averaged leaf: from its key, the leaf of the first checkpoint, and what each of the
  checkpoints has under the key, with the weights. -/
  rule : String → L → List (Found L × ℚ) → Option L
  /-- When there is an averaged leaf. -/
  Fits : String → L → List (Found L × ℚ) → Prop
  /-- The floating-point numbers of a leaf. -/
  value : L → ℕ → Option ℚ
  /-- The numbers a checkpoint contributes to a leaf. -/
  contributed : L → Found L → ℕ → Option ℚ
  /-- What is counted for a checkpoint that does not contribute. -/
  counted : L → Found L → ℕ → ℚ
  /-- Two leaves that differ only in numbers the average of some checkpoints does not read. -/
  Alike : String → L → L → List (Found L × ℚ) → Prop
  rule_fits : ∀ key v col, (∃ v', rule key v col = some v') ↔ Fits key v col
  rule_value : ∀ {key v col v' i x}, rule key v col = some v' → value v' i = some x →
    x = total (standIn (contributed v · i) (counted v · i) col)
  rule_places : ∀ {key v col v' i x}, rule key v col = some v' → value v i = some x →
    ∃ x', value v' i = some x'
  rule_perm : ∀ {key v} {col col' : List (Found L × ℚ)}, col.Perm col' →
    rule key v col = rule key v col'
  rule_alike : ∀ {key v v'} {col : List (Found L × ℚ)}, Alike key v v' col →
    rule key v col = rule key v' col
  contributed_self : ∀ {v i x}, value v i = some x → contributed v (.leaf v) i = some x

/-- Checkpoints with their weights, as the recursion has them. -/
def entries (cs : List (Checkpoint L × ℚ)) : List (Value L × ℚ) :=
  cs.map fun c => (.dict c.1.dict, c.2)

/-- The recursion the formats share: no checkpoint gives the empty dictionary, one gives itself,
and several are averaged along the keys of the first. -/
def fedavg (A : Averaging L) : List (Checkpoint L × ℚ) → Option (NestedDict L)
  | [] => some .nil
  | [c] => some c.1.dict
  | c :: c' :: cs => mergeFrom A.rule c.1.dict (entries (c :: c' :: cs))

/-! ## What is asked of an average -/

/-- What the first checkpoint has under a path. -/
def firstView : List (Checkpoint L × ℚ) → List String → Found L
  | [], path => nil.view path
  | c :: _, path => c.1.dict.view path

/-- What the checkpoints have under a path, with their weights. -/
def columnOf (cs : List (Checkpoint L × ℚ)) (path : List String) : List (Found L × ℚ) :=
  column (entries cs) path

/-- The numbers the checkpoints contribute to a leaf, with the weights of those that do. -/
def contributions (A : Averaging L) (cs : List (Checkpoint L × ℚ)) (path : List String) (v : L)
    (i : ℕ) : List (ℚ × ℚ) :=
  present (A.contributed v · i) (columnOf cs path)

/-- Some of the contributed numbers are at most, and some at least, the given one. -/
def Between (xs : List (ℚ × ℚ)) (q : ℚ) : Prop := (∃ x ∈ xs, x.1 ≤ q) ∧ ∃ x ∈ xs, q ≤ x.1

/-- The first checkpoints of two lists have the same under each path, except for numbers the
average does not read. -/
def SameFirst (A : Averaging L) (cs cs' : List (Checkpoint L × ℚ)) : Prop :=
  ∀ path, firstView cs path = firstView cs' path ∨
    ∃ v v', firstView cs path = .leaf v ∧ firstView cs' path = .leaf v' ∧
      A.Alike (path.getLastD "") v v' (columnOf cs path)

/-- The kind of what there is under a path. -/
def kind : Found L → Found Unit
  | .missing => .missing
  | .stuck => .stuck
  | .leaf _ => .leaf ()
  | .dict isNil => .dict isNil

/-- **The laws of an average.** -/
structure FedavgLaws (A : Averaging L) (cs : List (Checkpoint L × ℚ)) (r : NestedDict L) :
    Prop where
  /-- The keys are those of the first checkpoint, at every level. -/
  keys : ∀ path, kind (r.view path) = kind (firstView cs path)
  /-- The numbers of the first checkpoint are there. -/
  places : ∀ path v i x, firstView cs path = .leaf v → A.value v i = some x →
    ∃ v' x', r.view path = .leaf v' ∧ A.value v' i = some x'
  /-- A number is the weighted mean of the contributed ones where these have all of the weight. -/
  mean : ∀ path v' i x, r.view path = .leaf v' → A.value v' i = some x →
    ∃ v, firstView cs path = .leaf v ∧ (weight (contributions A cs path v i) = 1 →
      x = WeightedMean.mean (contributions A cs path v i) ∧
        Between (contributions A cs path v i) x)
  /-- Permuted checkpoints have the same average. -/
  perm : ∀ cs', cs.Perm cs' → SameFirst A cs cs' →
    ∃ r', fedavg A cs' = some r' ∧ ∀ path, r'.view path = r.view path

/-- What the checkpoints must have for there to be an average of several: what fits the leaves of
the first, and no leaf above one of its dictionaries. -/
def Compatible (A : Averaging L) (cs : List (Checkpoint L × ℚ)) : Prop :=
  ∀ path, match firstView cs path with
    | .leaf v => A.Fits (path.getLastD "") v (columnOf cs path)
    | .dict _ => path ≠ [] → ∀ e ∈ columnOf cs path, e.1 ≠ .stuck
    | _ => True

/-! ## What the checkpoints have under a path -/

theorem weight_columnOf (cs : List (Checkpoint L × ℚ)) (path : List String) :
    weight (columnOf cs path) = weight cs := by
  rw [columnOf, column, entries, weight, weight, List.map_map, List.map_map]
  rfl

theorem nonneg_columnOf {cs : List (Checkpoint L × ℚ)} (h : ∀ c ∈ cs, 0 ≤ c.2)
    (path : List String) : ∀ e ∈ columnOf cs path, 0 ≤ e.2 := by
  intro e he
  obtain ⟨value, hvalue, rfl⟩ := List.mem_map.mp he
  obtain ⟨c, hc, rfl⟩ := List.mem_map.mp hvalue
  exact h c hc

/-- The first of several checkpoints is among them. -/
theorem firstView_mem {c : Checkpoint L × ℚ} {cs : List (Checkpoint L × ℚ)}
    (path : List String) : (firstView (c :: cs) path, c.2) ∈ columnOf (c :: cs) path := by
  simp [columnOf, column, entries, firstView, view]

/-! ## The results -/

variable {A : Averaging L}

/-- What a result has under a path: what the only checkpoint has, or what the rule makes of what
the checkpoints have. -/
theorem fedavg_view {cs : List (Checkpoint L × ℚ)} {r : NestedDict L} (h : fedavg A cs = some r)
    (path : List String) :
    (cs.length ≤ 1 ∧ r.view path = firstView cs path) ∨
      Merged A.rule (path.getLastD "") (columnOf cs path) (firstView cs path) (r.view path) := by
  match cs, h with
  | [], h => exact Or.inl ⟨by simp, by rw [← Option.some.inj h]; rfl⟩
  | [c], h => exact Or.inl ⟨by simp, by rw [← Option.some.inj h]; rfl⟩
  | c :: c' :: cs, h => exact Or.inr (mergeFrom_view h path)

theorem kind_of_merged {rule : String → L → List (Found L × ℚ) → Option L} {key : String}
    {col : List (Found L × ℚ)} {f f' : Found L} (h : Merged rule key col f f') :
    kind f' = kind f := by
  cases f <;> cases f' <;> first | rfl | exact absurd h id | exact congrArg Found.dict h.symm

theorem eq_of_merged {rule : String → L → List (Found L × ℚ) → Option L} {key : String}
    {col : List (Found L × ℚ)} {f m m' : Found L} (h : Merged rule key col f m)
    (h' : Merged rule key col f m') : m = m' := by
  cases f <;> cases m <;> cases m' <;> simp_all [Merged]

theorem leaf_of_fedavg {cs : List (Checkpoint L × ℚ)} {r : NestedDict L}
    (h : fedavg A cs = some r) {path : List String} {v' : L} (hr : r.view path = .leaf v') :
    (∃ w, columnOf cs path = [(.leaf v', w)] ∧ firstView cs path = .leaf v') ∨
      ∃ v, firstView cs path = .leaf v ∧
        A.rule (path.getLastD "") v (columnOf cs path) = some v' := by
  rcases fedavg_view h path with ⟨hlength, hview⟩ | hmerged
  · match cs with
    | [] =>
      rw [hr] at hview
      cases path <;> exact absurd hview (by simp [firstView, view, Value.view, NestedDict.get])
    | [c] =>
      have hfirst : firstView [c] path = .leaf v' := hview ▸ hr
      exact Or.inl ⟨c.2, by rw [← hfirst]; rfl, hfirst⟩
    | c :: c' :: cs => simp at hlength
  · rw [hr] at hmerged
    cases hfirst : firstView cs path with
    | leaf v => exact Or.inr ⟨v, rfl, by simpa [hfirst, Merged] using hmerged⟩
    | missing | stuck | dict => simp [hfirst, Merged] at hmerged

theorem keys_fedavg {cs : List (Checkpoint L × ℚ)} {r : NestedDict L} (h : fedavg A cs = some r)
    (path : List String) : kind (r.view path) = kind (firstView cs path) := by
  rcases fedavg_view h path with ⟨-, hview⟩ | hmerged
  · rw [hview]
  · exact kind_of_merged hmerged

theorem places_fedavg {cs : List (Checkpoint L × ℚ)} {r : NestedDict L}
    (h : fedavg A cs = some r) {path : List String} {v : L} {i : ℕ} {x : ℚ}
    (hfirst : firstView cs path = .leaf v) (hx : A.value v i = some x) :
    ∃ v' x', r.view path = .leaf v' ∧ A.value v' i = some x' := by
  rcases fedavg_view h path with ⟨-, hview⟩ | hmerged
  · exact ⟨v, x, hview.trans hfirst, hx⟩
  · rw [hfirst] at hmerged
    cases hr : r.view path with
    | leaf v' =>
      rw [hr] at hmerged
      obtain ⟨x', hx'⟩ := A.rule_places hmerged hx
      exact ⟨v', x', rfl, hx'⟩
    | missing | stuck | dict => simp [hr, Merged] at hmerged

theorem value_fedavg {cs : List (Checkpoint L × ℚ)} (hsum : weight cs = 1) {r : NestedDict L}
    (h : fedavg A cs = some r) {path : List String} {v' : L} {i : ℕ} {x : ℚ}
    (hr : r.view path = .leaf v') (hx : A.value v' i = some x) :
    ∃ v, firstView cs path = .leaf v ∧
      x = total (standIn (A.contributed v · i) (A.counted v · i) (columnOf cs path)) := by
  rcases leaf_of_fedavg h hr with ⟨w, hcol, hfirst⟩ | ⟨v, hfirst, hrule⟩
  · refine ⟨v', hfirst, ?_⟩
    have hw : weight (columnOf cs path) = 1 := by rw [weight_columnOf, hsum]
    rw [hcol] at hw
    obtain rfl : w = 1 := by simpa [weight] using hw
    rw [hcol]
    simp [standIn, A.contributed_self hx, total]
  · exact ⟨v, hfirst, A.rule_value hrule hx⟩

theorem mean_fedavg {cs : List (Checkpoint L × ℚ)} (hnonneg : ∀ c ∈ cs, 0 ≤ c.2)
    (hsum : weight cs = 1) {r : NestedDict L} (h : fedavg A cs = some r) {path : List String}
    {v' : L} {i : ℕ} {x : ℚ} (hr : r.view path = .leaf v') (hx : A.value v' i = some x) :
    ∃ v, firstView cs path = .leaf v ∧ (weight (contributions A cs path v i) = 1 →
      x = WeightedMean.mean (contributions A cs path v i) ∧
        Between (contributions A cs path v i) x) := by
  obtain ⟨v, hfirst, hvalue⟩ := value_fedavg hsum h hr hx
  refine ⟨v, hfirst, fun hall => ?_⟩
  have hcol := nonneg_columnOf hnonneg path
  have htotal : x = total (contributions A cs path v i) := by
    rw [hvalue, total_standIn hcol (by rw [weight_columnOf, hsum]; exact hall)]
    rfl
  have hmean : x = WeightedMean.mean (contributions A cs path v i) := by
    rw [htotal, mean_eq_total hall]
  have hpos : 0 < weight (contributions A cs path v i) := by
    rw [hall]
    exact one_pos
  exact ⟨hmean, hmean ▸ between_mean (nonneg_present hcol) hpos⟩

/-! ## Permuted checkpoints -/

theorem mergeableAt_perm {vals vals' : List (Value L × ℚ)} (hperm : vals.Perm vals')
    {path : List String} {f : Found L} (h : MergeableAt A.rule vals path f) :
    MergeableAt A.rule vals' path f := by
  cases f with
  | missing => trivial
  | stuck => trivial
  | leaf v =>
    obtain ⟨v', hv'⟩ := h
    exact ⟨v', (A.rule_perm (hperm.map _)).symm.trans hv'⟩
  | dict => exact fun hpath c hc => h hpath c (hperm.mem_iff.mpr hc)

theorem merged_perm {key : String} {col col' : List (Found L × ℚ)} (hperm : col.Perm col')
    {f m : Found L} (h : Merged A.rule key col f m) : Merged A.rule key col' f m := by
  cases f <;> cases m <;> first | exact h | exact (A.rule_perm hperm).symm.trans h

theorem merged_alike {key : String} {col : List (Found L × ℚ)} {v v' : L}
    (halike : A.Alike key v v' col) {m : Found L} (h : Merged A.rule key col (.leaf v) m) :
    Merged A.rule key col (.leaf v') m := by
  cases m with
  | leaf averaged => exact (A.rule_alike halike).symm.trans h
  | missing | stuck | dict => exact h

/-- Several checkpoints, permuted so that the first ones agree, have averages that agree. -/
theorem mergeFrom_perm {ref ref' : NestedDict L} (hdistinct : ref'.Distinct)
    {vals vals' : List (Value L × ℚ)} (hperm : vals.Perm vals')
    (hsame : ∀ path, ref.view path = ref'.view path ∨
      ∃ v v', ref.view path = .leaf v ∧ ref'.view path = .leaf v' ∧
        A.Alike (path.getLastD "") v v' (column vals path))
    {r : NestedDict L} (h : mergeFrom A.rule ref vals = some r) :
    ∃ r', mergeFrom A.rule ref' vals' = some r' ∧ ∀ path, r'.view path = r.view path := by
  have hmergeable : ∀ path, MergeableAt A.rule vals' path (ref'.view path) := by
    intro path
    apply mergeableAt_perm hperm
    rcases hsame path with heq | ⟨v, v', hv, hv', halike⟩
    · rw [← heq]
      exact mergeableAt_of_mergeFrom h path
    · have hat := mergeableAt_of_mergeFrom h path
      rw [hv] at hat
      obtain ⟨averaged, hrule⟩ := hat
      rw [hv']
      exact ⟨averaged, (A.rule_alike halike).symm.trans hrule⟩
  obtain ⟨r', hr'⟩ := (exists_mergeFrom hdistinct).mpr hmergeable
  refine ⟨r', hr', fun path => ?_⟩
  have hview := mergeFrom_view h path
  have hview' := mergeFrom_view hr' path
  rcases hsame path with heq | ⟨v, v', hv, hv', halike⟩
  · rw [heq] at hview
    exact eq_of_merged hview' (merged_perm (hperm.map _) hview)
  · rw [hv] at hview
    rw [hv'] at hview'
    exact eq_of_merged hview' (merged_perm (hperm.map _) (merged_alike halike hview))

theorem perm_fedavg {cs cs' : List (Checkpoint L × ℚ)} (hperm : cs.Perm cs')
    (hsame : SameFirst A cs cs') {r : NestedDict L} (h : fedavg A cs = some r) :
    ∃ r', fedavg A cs' = some r' ∧ ∀ path, r'.view path = r.view path := by
  match cs, cs', h with
  | [], cs', h =>
    obtain rfl := hperm.nil_eq
    exact ⟨r, h, fun path => rfl⟩
  | [c], cs', h =>
    obtain rfl := hperm.singleton_eq
    exact ⟨r, h, fun path => rfl⟩
  | c :: d :: cs, [], h => exact absurd hperm.length_eq (by simp)
  | c :: d :: cs, [c'], h => exact absurd hperm.length_eq (by simp)
  | c :: d :: cs, c' :: d' :: cs', h =>
    exact mergeFrom_perm c'.1.distinct (hperm.map _) hsame h

/-! ## The laws -/

/-- **The laws hold of every average.** -/
theorem fedavgLaws {cs : List (Checkpoint L × ℚ)} (hnonneg : ∀ c ∈ cs, 0 ≤ c.2)
    (hsum : weight cs = 1) {r : NestedDict L} (h : fedavg A cs = some r) :
    FedavgLaws A cs r where
  keys := keys_fedavg h
  places _ _ _ _ := places_fedavg h
  mean _ _ _ _ := mean_fedavg hnonneg hsum h
  perm _ hperm hsame := perm_fedavg hperm hsame h

/-- **When there is an average.** -/
theorem exists_fedavg {cs : List (Checkpoint L × ℚ)} :
    (∃ r, fedavg A cs = some r) ↔ cs.length ≤ 1 ∨ Compatible A cs := by
  match cs with
  | [] => simp [fedavg]
  | [c] => simp [fedavg]
  | c :: d :: cs =>
    have hlength : ¬(c :: d :: cs).length ≤ 1 := by simp
    rw [fedavg, exists_mergeFrom c.1.distinct, Compatible, or_iff_right hlength]
    apply forall_congr'
    intro path
    rw [firstView]
    cases c.1.dict.view path with
    | missing | stuck => exact Iff.rfl
    | leaf v => exact A.rule_fits _ v _
    | dict =>
      apply imp_congr_right
      intro _
      rw [columnOf, column, List.forall_mem_map]

end Aidars.Training
