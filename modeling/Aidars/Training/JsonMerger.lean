import Aidars.Training.Averaging

/-!
# Averaging JSON checkpoints

`jsonRule` is what the merger does with a leaf of JSON checkpoints: numbers and lists that begin
with a number are averaged, anything else is the first checkpoint's. `jsonAveraging` has the facts
on which the laws of the averages rest. In this format a number of which a checkpoint lacks the key
counts as the first checkpoint's; `standInLaw` says that it is a mean of contributed numbers
therefore.
-/

namespace Aidars.Training

open NestedDict WeightedMean

variable {τ : Type*}

/-- A value in a JSON list: a number (or a boolean, which counts as one), or anything else. -/
inductive JsonItem (τ : Type*)
  | number (q : ℚ)
  | other (t : τ)
  deriving DecidableEq

/-- A leaf of a JSON dictionary: a list, or a value that is neither a list nor a dictionary. -/
inductive JsonLeaf (τ : Type*)
  | item (x : JsonItem τ)
  | list (xs : List (JsonItem τ))
  deriving DecidableEq

/-- What Python makes of values that are no numbers: `float(t)`, and the characters of a text. -/
structure JsonReading (τ : Type*) where
  toFloat : τ → Option ℚ
  chars : τ → Option (List τ)

variable (py : JsonReading τ)

/-- `float(x)`. -/
def JsonItem.float : JsonItem τ → Option ℚ
  | .number q => some q
  | .other t => py.toFloat t

/-- Whether a list begins with a number, which is what the merger takes for a list of numbers. -/
def startsWithNumber : List (JsonItem τ) → Bool
  | .number _ :: _ => true
  | _ => false

/-- `float(jd.get(k, v))`, where the first checkpoint has the number `v`. -/
def floatOf (v : ℚ) : Found (JsonLeaf τ) → Option ℚ
  | .missing => some v
  | .leaf (.item x) => x.float py
  | _ => none

/-- What `jd.get(k, v)` has at 0, 1, and so on, where the first checkpoint has the list `v`. A text
has its characters there, and of the dictionaries only the empty one is not asked for its 0. -/
def itemsOf (v : List (JsonItem τ)) : Found (JsonLeaf τ) → Option (List (JsonItem τ))
  | .missing => some v
  | .leaf (.list xs) => some xs
  | .leaf (.item (.other t)) => (py.chars t).map (·.map .other)
  | .dict true => some []
  | _ => none

/-- The numbers read from `jd.get(k, v)`, where the first checkpoint has the list `v`: no more than
the first has. -/
def floatsOf (v : List (JsonItem τ)) (f : Found (JsonLeaf τ)) : Option (List ℚ) :=
  (itemsOf py v f).bind fun xs => (xs.take v.length).mapM (JsonItem.float py)

/-- What `_fedavg_json_dict` does with a leaf. -/
def jsonRule (_key : String) (v : JsonLeaf τ) (col : List (Found (JsonLeaf τ) × ℚ)) :
    Option (JsonLeaf τ) :=
  match v with
  | .item (.number q) => (gather (floatOf py q) col).map fun xs => .item (.number (total xs))
  | .list xs =>
    if startsWithNumber xs then
      (gather (floatsOf py xs) col).map fun rows =>
        .list ((accumulateAll xs.length rows).map .number)
    else
      some (.list xs)
  | v => some v

/-- What each checkpoint must have for there to be an averaged leaf. -/
def JsonFits (_key : String) (v : JsonLeaf τ) (col : List (Found (JsonLeaf τ) × ℚ)) : Prop :=
  match v with
  | .item (.number q) => ∀ e ∈ col, ∃ x, floatOf py q e.1 = some x
  | .list xs => startsWithNumber xs → ∀ e ∈ col, ∃ ys, floatsOf py xs e.1 = some ys
  | _ => True

/-- The numbers of a JSON leaf: a number itself, or those of a list that begins with one. -/
def jsonValue (v : JsonLeaf τ) (i : ℕ) : Option ℚ :=
  match v with
  | .item (.number q) => if i = 0 then some q else none
  | .list xs => if startsWithNumber xs then xs[i]?.bind (JsonItem.float py) else none
  | _ => none

/-- The numbers a checkpoint contributes to a JSON leaf. -/
def jsonContributed (v : JsonLeaf τ) (f : Found (JsonLeaf τ)) (i : ℕ) : Option ℚ :=
  match v, f with
  | .item _, .leaf (.item x) => if i = 0 then x.float py else none
  | .list _, .missing => none
  | .list xs, f => ((itemsOf py xs f).getD [])[i]?.bind (JsonItem.float py)
  | _, _ => none

/-- What counts for a checkpoint that does not contribute: the number of the first if the key is
missing, and nothing if its list is too short. -/
def jsonCounted (v : JsonLeaf τ) (f : Found (JsonLeaf τ)) (i : ℕ) : ℚ :=
  match f with
  | .missing => (jsonValue py v i).getD 0
  | _ => 0

/-- Numbers, or lists of numbers of one length, that no checkpoint lacks. -/
def JsonAlike (_key : String) (v v' : JsonLeaf τ) (col : List (Found (JsonLeaf τ) × ℚ)) : Prop :=
  (∀ e ∈ col, e.1 ≠ .missing) ∧
  match v, v' with
  | .item (.number _), .item (.number _) => True
  | .list xs, .list xs' => startsWithNumber xs ∧ startsWithNumber xs' ∧ xs.length = xs'.length
  | _, _ => False

/-! ## Numbers that are read -/

theorem getElem?_floats {xs : List (JsonItem τ)} {ys : List ℚ}
    (h : xs.mapM (JsonItem.float py) = some ys) (i : ℕ) :
    ys[i]? = xs[i]?.bind (JsonItem.float py) := by
  induction xs generalizing ys i with
  | nil =>
    obtain rfl : ys = [] := by simpa using h.symm
    simp
  | cons x xs ih =>
    rw [List.mapM_cons] at h
    obtain ⟨y, hy, h⟩ := Option.bind_eq_some_iff.mp h
    obtain ⟨rest, hrest, h⟩ := Option.bind_eq_some_iff.mp h
    obtain rfl := Option.some.inj h
    cases i with
    | zero => simpa using hy.symm
    | succ i => simpa using ih hrest i

/-! ## Averaged leaves -/

theorem jsonRule_fits (key : String) (v : JsonLeaf τ) (col : List (Found (JsonLeaf τ) × ℚ)) :
    (∃ v', jsonRule py key v col = some v') ↔ JsonFits py key v col := by
  match v with
  | .item (.number q) => exact exists_map_gather
  | .item (.other t) => simp [jsonRule, JsonFits]
  | .list xs =>
    by_cases hnumber : startsWithNumber xs
    · simp only [jsonRule, JsonFits, hnumber, if_true, true_imp_iff]
      exact exists_map_gather
    · simp [jsonRule, JsonFits, hnumber]

/-- A number of an averaged list is the sum of what the lists have at its place. -/
theorem value_averagedList {length : ℕ} {rows : List (List ℚ × ℚ)} {i : ℕ} {x : ℚ}
    (h : jsonValue py (.list ((accumulateAll length rows).map .number)) i = some x) :
    i < length ∧ x = total (rows.map fun row => (row.1.getD i 0, row.2)) := by
  simp only [jsonValue, List.getElem?_map, getElem?_accumulateAll] at h
  by_cases hi : i < length
  · refine ⟨hi, ?_⟩
    split at h
    · simpa [hi, JsonItem.float] using h.symm
    · simp at h
  · simp [hi] at h

theorem averagedList_value {length : ℕ} (hlength : 0 < length) (rows : List (List ℚ × ℚ)) {i : ℕ}
    (hi : i < length) : ∃ x, jsonValue py (.list ((accumulateAll length rows).map
      (.number (τ := τ)))) i = some x := by
  have hnumber : startsWithNumber ((accumulateAll length rows).map (JsonItem.number (τ := τ))) := by
    cases haccum : accumulateAll length rows with
    | nil =>
      have hzero := length_accumulateAll length rows
      simp [haccum] at hzero
      omega
    | cons a accum => rfl
  simp [jsonValue, hnumber, hi, JsonItem.float]

theorem counted_floatOf (q : ℚ) (f : Found (JsonLeaf τ)) :
    (jsonContributed py (.item (.number q)) f 0).getD
      (jsonCounted py (.item (.number q)) f 0) = (floatOf py q f).getD 0 := by
  rcases f with - | - | (x | xs) | - <;> simp [jsonContributed, jsonCounted, jsonValue, floatOf]

theorem counted_floatsOf {xs : List (JsonItem τ)} (hnumber : startsWithNumber xs)
    {f : Found (JsonLeaf τ)} {ys : List ℚ} (h : floatsOf py xs f = some ys) {i : ℕ}
    (hi : i < xs.length) :
    (jsonContributed py (.list xs) f i).getD (jsonCounted py (.list xs) f i) =
      ys.getD i 0 := by
  obtain ⟨zs, hzs, h⟩ := Option.bind_eq_some_iff.mp h
  rw [List.getD_eq_getElem?_getD, getElem?_floats py h, List.getElem?_take_of_lt hi]
  by_cases hf : f = .missing
  · subst hf
    obtain rfl := Option.some.inj hzs
    simp [jsonContributed, jsonCounted, jsonValue, hnumber]
  · have hcounted :
      jsonCounted py (.list xs) f i = 0 := by cases f <;> first | rfl | exact absurd rfl hf
    rw [jsonContributed, hzs, hcounted, Option.getD_some]
    exact hf

theorem jsonRule_value {key : String} {v : JsonLeaf τ} {col : List (Found (JsonLeaf τ) × ℚ)}
    {v' : JsonLeaf τ} {i : ℕ} {x : ℚ} (h : jsonRule py key v col = some v')
    (hx : jsonValue py v' i = some x) :
    x = total (standIn (jsonContributed py v · i) (jsonCounted py v · i) col) := by
  match v with
  | .item (.number q) =>
    obtain ⟨xs, hxs, rfl⟩ := Option.map_eq_some_iff.mp h
    rw [jsonValue, Option.ite_none_right_eq_some] at hx
    obtain ⟨rfl, hx⟩ := hx
    rw [← Option.some.inj hx, eq_of_gather hxs fun _ => 0]
    simp only [standIn, counted_floatOf]
  | .item (.other t) =>
    obtain rfl := Option.some.inj h
    simp [jsonValue] at hx
  | .list xs =>
    by_cases hnumber : startsWithNumber xs
    · simp only [jsonRule, hnumber, if_true, Option.map_eq_some_iff] at h
      obtain ⟨rows, hrows, rfl⟩ := h
      obtain ⟨hi, rfl⟩ := value_averagedList py hx
      have hall := exists_gather.mp ⟨rows, hrows⟩
      rw [eq_of_gather hrows fun _ => [], standIn, standIn, List.map_map]
      congr 1
      apply List.map_congr_left
      intro e he
      obtain ⟨ys, hys⟩ := hall e he
      simp [counted_floatsOf py hnumber hys hi, hys]
    · simp only [jsonRule, hnumber] at h
      obtain rfl := Option.some.inj h
      simp [jsonValue, hnumber] at hx

theorem jsonRule_places {key : String} {v : JsonLeaf τ} {col : List (Found (JsonLeaf τ) × ℚ)}
    {v' : JsonLeaf τ} {i : ℕ} {x : ℚ} (h : jsonRule py key v col = some v')
    (hx : jsonValue py v i = some x) : ∃ x', jsonValue py v' i = some x' := by
  match v with
  | .item (.number q) =>
    obtain ⟨xs, -, rfl⟩ := Option.map_eq_some_iff.mp h
    rw [jsonValue, Option.ite_none_right_eq_some] at hx
    exact ⟨total xs, if_pos hx.1⟩
  | .item (.other t) => simp [jsonValue] at hx
  | .list xs =>
    by_cases hnumber : startsWithNumber xs
    · simp only [jsonRule, hnumber, if_true, Option.map_eq_some_iff] at h
      obtain ⟨rows, -, rfl⟩ := h
      have hi : i < xs.length := by
        by_contra hge
        simp [jsonValue, hnumber, List.getElem?_eq_none (not_lt.mp hge)] at hx
      exact averagedList_value py (by omega) rows hi
    · simp [jsonValue, hnumber] at hx

theorem jsonRule_perm {key : String} {v : JsonLeaf τ} {col col' : List (Found (JsonLeaf τ) × ℚ)}
    (h : col.Perm col') : jsonRule py key v col = jsonRule py key v col' := by
  match v with
  | .item (.number q) => exact map_gather_perm h fun hrows => by rw [total_perm hrows]
  | .item (.other t) => rfl
  | .list xs =>
    rw [jsonRule, jsonRule]
    split
    · exact map_gather_perm h fun hrows => by rw [accumulateAll_perm hrows]
    · rfl

/-- Where the key is not missing, the first checkpoint's number is not read. -/
theorem floatOf_congr {f : Found (JsonLeaf τ)} (h : f ≠ .missing) (q q' : ℚ) :
    floatOf py q f = floatOf py q' f := by
  cases f with
  | missing => exact absurd rfl h
  | leaf v => cases v <;> rfl
  | stuck | dict => rfl

theorem floatsOf_congr {f : Found (JsonLeaf τ)} (h : f ≠ .missing) {xs xs' : List (JsonItem τ)}
    (hlength : xs.length = xs'.length) : floatsOf py xs f = floatsOf py xs' f := by
  have hitems : itemsOf py xs f = itemsOf py xs' f := by
    unfold itemsOf
    split <;> first | rfl | exact absurd rfl h
  rw [floatsOf, floatsOf, hitems, hlength]

theorem jsonRule_alike {key : String} {v v' : JsonLeaf τ} {col : List (Found (JsonLeaf τ) × ℚ)}
    (h : JsonAlike key v v' col) : jsonRule py key v col = jsonRule py key v' col := by
  obtain ⟨hpresent, halike⟩ := h
  match v, v', halike with
  | .item (.number q), .item (.number q'), _ =>
    rw [jsonRule, jsonRule, gather_congr fun e he => floatOf_congr py (hpresent e he) q q']
  | .list xs, .list xs', halike =>
    obtain ⟨hxs, hxs', hlength⟩ := halike
    simp only [jsonRule, hxs, hxs', if_true, hlength]
    rw [gather_congr fun e he => floatsOf_congr py (hpresent e he) hlength]

theorem jsonContributed_self {v : JsonLeaf τ} {i : ℕ} {x : ℚ} (h : jsonValue py v i = some x) :
    jsonContributed py v (.leaf v) i = some x := by
  match v with
  | .item (.number q) => exact h
  | .item (.other t) => simp [jsonValue] at h
  | .list xs =>
    rw [jsonValue] at h
    split at h
    · exact h
    · simp at h

/-- What JSON does with leaves. -/
def jsonAveraging : Averaging (JsonLeaf τ) where
  rule := jsonRule py
  Fits := JsonFits py
  value := jsonValue py
  contributed := jsonContributed py
  counted := jsonCounted py
  Alike := JsonAlike
  rule_fits := jsonRule_fits py
  rule_value := jsonRule_value py
  rule_places := jsonRule_places py
  rule_perm := jsonRule_perm py
  rule_alike := jsonRule_alike py
  contributed_self := jsonContributed_self py

/-- `_fedavg_json_dict`. -/
def fedavgJsonDict : List (Checkpoint (JsonLeaf τ) × ℚ) → Option (NestedDict (JsonLeaf τ)) :=
  fedavg (jsonAveraging py)

/-! ## Missing keys -/

/-- A JSON number counts as the first checkpoint's where a checkpoint lacks its key: where no list
is too short it is the weighted mean of all, and between two contributed numbers. -/
def StandInLaw (cs : List (Checkpoint (JsonLeaf τ) × ℚ)) (r : NestedDict (JsonLeaf τ)) : Prop :=
  ∀ path v' i x, r.view path = .leaf v' → jsonValue py v' i = some x →
    ∃ v, firstView cs path = .leaf v ∧
      ((∀ e ∈ columnOf cs path, e.1 = .missing ∨ ∃ y, jsonContributed py v e.1 i = some y) →
        ∃ first, jsonValue py v i = some first ∧
          x = WeightedMean.mean
            (standIn (jsonContributed py v · i) (fun _ => first) (columnOf cs path)) ∧
          Between (contributions (jsonAveraging py) cs path v i) x)

/-- A leaf with averaged numbers has its own numbers for such. -/
theorem contributed_of_averaged {key : String} {v v' : JsonLeaf τ}
    {col : List (Found (JsonLeaf τ) × ℚ)} {i : ℕ} {x first : ℚ}
    (h : jsonRule py key v col = some v') (hx : jsonValue py v' i = some x)
    (hfirst : jsonContributed py v (.leaf v) i = some first) :
    jsonValue py v i = some first := by
  match v with
  | .item (.number q) => exact hfirst
  | .item (.other t) =>
    obtain rfl := Option.some.inj h
    simp [jsonValue] at hx
  | .list xs =>
    by_cases hnumber : startsWithNumber xs
    · simpa [jsonValue, hnumber, jsonContributed, itemsOf] using hfirst
    · simp only [jsonRule, hnumber] at h
      obtain rfl := Option.some.inj h
      simp [jsonValue, hnumber] at hx

theorem standInLaw {cs : List (Checkpoint (JsonLeaf τ) × ℚ)} (hnonneg : ∀ c ∈ cs, 0 ≤ c.2)
    (hsum : weight cs = 1) {r : NestedDict (JsonLeaf τ)} (h : fedavgJsonDict py cs = some r) :
    StandInLaw py cs r := by
  intro path v' i x hr hx
  obtain ⟨v, hview, hvalue⟩ := value_fedavg hsum h hr hx
  refine ⟨v, hview, fun hthere => ?_⟩
  obtain ⟨c, rest, rfl⟩ : ∃ c rest, cs = c :: rest := by
    cases cs with
    | nil => simp [weight] at hsum
    | cons c rest => exact ⟨c, rest, rfl⟩
  have hmem : (Found.leaf v, c.2) ∈ columnOf (c :: rest) path := hview ▸ firstView_mem path
  obtain ⟨first, hfirst⟩ : ∃ first, jsonContributed py v (.leaf v) i = some first := by
    rcases hthere _ hmem with hmissing | hcontributed
    · exact absurd hmissing (by simp)
    · exact hcontributed
  have hown : jsonValue py v i = some first := by
    rcases leaf_of_fedavg h hr with ⟨-, -, hfirst'⟩ | ⟨v₁, hv₁, hrule⟩
    · obtain rfl : v = v' := by simpa [hview] using hfirst'
      rw [hx, ← hfirst, jsonContributed_self py hx]
    · obtain rfl : v = v₁ := by simpa [hview] using hv₁
      exact @contributed_of_averaged τ py (path.getLastD "") v v' _ i x first hrule hx hfirst
  refine ⟨first, hown, ?_⟩
  have hsame : standIn (jsonContributed py v · i) (jsonCounted py v · i)
      (columnOf (c :: rest) path) =
      standIn (jsonContributed py v · i) (fun _ => first) (columnOf (c :: rest) path) := by
    apply List.map_congr_left
    intro e he
    rcases hthere e he with hmissing | ⟨y, hy⟩
    · simp [hmissing, jsonCounted, hown]
    · simp [hy]
  have hweight : weight (standIn (jsonContributed py v · i) (fun _ => first)
      (columnOf (c :: rest) path)) = 1 := by
    rw [weight_standIn, weight_columnOf, hsum]
  have hmean : x = WeightedMean.mean (standIn (jsonContributed py v · i) (fun _ => first)
      (columnOf (c :: rest) path)) := by
    rw [mean_eq_total hweight, ← hsame]
    exact hvalue
  refine ⟨hmean, ?_⟩
  have hthere' : ∃ y ∈ contributions (jsonAveraging py) (c :: rest) path v i, y.1 = first :=
    ⟨(first, c.2), mem_present.mpr ⟨_, hmem, hfirst, rfl⟩, rfl⟩
  have hnonneg' : ∀ y ∈ standIn (jsonContributed py v · i) (fun _ => first)
      (columnOf (c :: rest) path), 0 ≤ y.2 := by
    intro y hy
    obtain ⟨e, he, rfl⟩ := List.mem_map.mp hy
    exact nonneg_columnOf hnonneg path e he
  have hpos : 0 < weight (standIn (jsonContributed py v · i) (fun _ => first)
      (columnOf (c :: rest) path)) := by
    rw [hweight]
    exact one_pos
  obtain ⟨⟨low, hlow, hle⟩, high, hhigh, hge⟩ := between_mean hnonneg' hpos
  rw [← hmean] at hle hge
  obtain ⟨low', hlow', hleq⟩ := mem_standIn hthere' hlow
  obtain ⟨high', hhigh', hheq⟩ := mem_standIn hthere' hhigh
  exact ⟨⟨low', hlow', hleq ▸ hle⟩, high', hhigh', hheq ▸ hge⟩

end Aidars.Training
