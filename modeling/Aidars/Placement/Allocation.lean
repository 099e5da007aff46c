import Aidars.Foundations.Apportionment
import Aidars.Foundations.Sorting
import Aidars.Placement.Sizing
import Mathlib.Algebra.BigOperators.Fin
import Mathlib.Data.List.OfFn

/-!
# The allocation of units

In exact arithmetic `allocateUnits` is the apportionment of the units by largest remainders, with
the speeds of the workers as their weights (`allocateUnits_eq`). The units are therefore shared out
whole and in proportion, whatever the speeds are.

A group is only considered when its workers could have the minimum of units each if they all had the
same number. The shares are proportional to the speeds instead, so that a slow worker of a group may
be left below the minimum: `unit_allocation` says when it is.
-/

namespace Aidars.Sizing

open Apportionment

/-! ## Exact arithmetic on lists of floats -/

section Exact

variable {k : ℕ}

/-- Finite floats. -/
def floats (f : Fin k → ℚ) : List PyFloat := List.ofFn fun i => PyFloat.finite (f i)

theorem foldl_add_finite (l : List ℚ) (a : ℚ) :
    (l.map PyFloat.finite).foldl (PyFloat.add .finite) (.finite a) = .finite (a + l.sum) := by
  induction l generalizing a with
  | nil => simp
  | cons b l ih => rw [List.map_cons, List.foldl_cons, PyFloat.add, ih, List.sum_cons, add_assoc]

theorem floats_eq_map (f : Fin k → ℚ) : floats f = (List.ofFn f).map PyFloat.finite := by
  rw [List.map_ofFn]
  rfl

theorem sum_floats (f : Fin k → ℚ) : PyFloat.sum .finite (floats f) = .finite (∑ i, f i) := by
  have hzero : (0 : PyFloat) = .finite 0 := rfl
  rw [PyFloat.sum, floats_eq_map, foldl_add_finite, List.sum_ofFn, zero_add]

theorem mapM_floor_finite (l : List ℚ) :
    (l.map PyFloat.finite).mapM PyFloat.floor = some (l.map Int.floor) := by
  induction l with
  | nil => rfl
  | cons a l ih => rw [List.map_cons, List.mapM_cons, ih]; rfl

theorem mapM_floor_floats (f : Fin k → ℚ) :
    (floats f).mapM PyFloat.floor = some (List.ofFn fun i => ⌊f i⌋) := by
  rw [floats_eq_map, mapM_floor_finite, List.map_ofFn]
  rfl

end Exact

/-! ## The order of the remainders -/

section Fractions

variable {k : ℕ} (q : Fin k → ℚ)

/-- The remainders with the places of their workers, in descending order. -/
def byRemainder : List (ℚ × ℕ) :=
  (List.ofFn fun i => (Int.fract (q i), i.val)).insertionSort fun a b => ¬ a.1 < b.1

/-- The fractions that the code sorts. -/
theorem zipIdx_fractions :
    (((floats q).zip (List.ofFn fun i => ⌊q i⌋)).zipIdx.map fun ((x, f), i) =>
      (PyFloat.sub .finite x (PyFloat.ofInt .finite f), i)) =
      (List.ofFn fun i => (Int.fract (q i), i.val)).map fun e => (PyFloat.finite e.1, e.2) := by
  refine List.ext_getElem (by simp [floats]) fun i hi hi' => ?_
  simp [floats, PyFloat.sub, PyFloat.ofInt, PyFloat.neg, PyFloat.add, Int.fract, sub_eq_add_neg]

theorem insertionSort_fractions :
    ((List.ofFn fun i => (Int.fract (q i), i.val)).map fun e : ℚ × ℕ =>
        (PyFloat.finite e.1, e.2)).insertionSort (fun a b => ¬ a.1.lt b.1) =
      (byRemainder q).map fun e => (PyFloat.finite e.1, e.2) :=
  (List.map_insertionSort _ _ _ _ fun a _ b _ => by simp [PyFloat.lt]).symm

variable {q}

/-- A larger remainder comes first, and of equal ones the earlier. -/
theorem pairwise_byRemainder :
    (byRemainder q).Pairwise fun a b => ¬ a.1 < b.1 ∧ (¬ b.1 < a.1 → a.2 < b.2) := by
  refine pairwise_insertionSort_stable (fun a b => ?_) (fun a b c hab hbc => ?_) ?_
  · rw [not_lt, not_lt]
    exact le_total _ _
  · exact not_lt.2 ((not_lt.1 hbc).trans (not_lt.1 hab))
  · exact List.pairwise_ofFn.2 fun i j hij => hij

theorem perm_byRemainder : (byRemainder q).Perm (List.ofFn fun i => (Int.fract (q i), i.val)) :=
  List.perm_insertionSort _ _

theorem mem_byRemainder {e : ℚ × ℕ} :
    e ∈ byRemainder q ↔ ∃ i : Fin k, e = (Int.fract (q i), i.val) := by
  rw [perm_byRemainder.mem_iff, List.mem_ofFn]
  exact exists_congr fun i => eq_comm

theorem nodup_snd_byRemainder : ((byRemainder q).map Prod.snd).Nodup := by
  rw [(perm_byRemainder.map Prod.snd).nodup_iff, List.map_ofFn]
  exact List.nodup_ofFn.2 fun i j hij => Fin.ext hij

/-- The workers whose remainders are among the first. -/
def roundedUp (q : Fin k → ℚ) (r : ℕ) : Finset (Fin k) :=
  Finset.univ.filter fun i => i.val ∈ ((byRemainder q).take r).map Prod.snd

theorem mem_roundedUp {r : ℕ} {i : Fin k} :
    i ∈ roundedUp q r ↔ (Int.fract (q i), i.val) ∈ (byRemainder q).take r := by
  rw [roundedUp, Finset.mem_filter, and_iff_right (Finset.mem_univ i), List.mem_map]
  constructor
  · rintro ⟨e, he, hi⟩
    obtain ⟨j, rfl⟩ := mem_byRemainder.1 (List.mem_of_mem_take he)
    rwa [← Fin.ext hi]
  · exact fun h => ⟨_, h, rfl⟩

theorem card_roundedUp {r : ℕ} (hr : r ≤ k) : (roundedUp q r).card = r := by
  have hlength : ((byRemainder q).take r).length = r := by
    rw [List.length_take, perm_byRemainder.length_eq, List.length_ofFn]
    omega
  have hnodup : (((byRemainder q).take r).map Prod.snd).Nodup :=
    nodup_snd_byRemainder.sublist ((List.take_sublist r _).map Prod.snd)
  have himage : (roundedUp q r).image Fin.val =
      (((byRemainder q).take r).map Prod.snd).toFinset := by
    ext j
    rw [List.mem_toFinset, Finset.mem_image]
    constructor
    · rintro ⟨i, hi, rfl⟩
      exact List.mem_map.2 ⟨_, mem_roundedUp.1 hi, rfl⟩
    · intro hj
      obtain ⟨e, he, rfl⟩ := List.mem_map.1 hj
      obtain ⟨i, rfl⟩ := mem_byRemainder.1 (List.mem_of_mem_take he)
      exact ⟨i, mem_roundedUp.2 he, rfl⟩
  rw [← Finset.card_image_of_injective _ Fin.val_injective, himage,
    List.toFinset_card_of_nodup hnodup,
    List.length_map, hlength]

/-- A worker that is rounded up is there once. -/
theorem count_roundedUp (q : Fin k → ℚ) (r : ℕ) (i : Fin k) :
    ((((byRemainder q).map fun e => (PyFloat.finite e.1, e.2)).take r).map Prod.snd).count i.val =
      if i ∈ roundedUp q r then 1 else 0 := by
  have hsnd : (((byRemainder q).map fun e => (PyFloat.finite e.1, e.2)).take r).map Prod.snd =
      ((byRemainder q).take r).map Prod.snd := by
    rw [← List.map_take, List.map_map]
    rfl
  have hnodup : (((byRemainder q).take r).map Prod.snd).Nodup :=
    nodup_snd_byRemainder.sublist ((List.take_sublist r _).map Prod.snd)
  rw [hsnd, hnodup.count]
  simp only [roundedUp, Finset.mem_filter, Finset.mem_univ, true_and]

/-- **The sort finds the workers that are rounded up.** -/
theorem roundedUp_spec {n : ℤ} (hq : ∑ i, q i = n) :
    RoundedUp n q (roundedUp q (leftover n q).toNat) := by
  have hnonneg := leftover_nonneg hq
  have hle := leftover_le_card hq
  rw [Fintype.card_fin] at hle
  refine ⟨?_, fun i hi j hj => ?_⟩
  · rw [card_roundedUp (by omega), Int.toNat_of_nonneg hnonneg]
  · have hsplit := (byRemainder q).take_append_drop (leftover n q).toNat
    have hjmem : (Int.fract (q j), j.val) ∈ (byRemainder q).drop (leftover n q).toNat := by
      have hmem : (Int.fract (q j), j.val) ∈ byRemainder q := mem_byRemainder.2 ⟨j, rfl⟩
      rw [← hsplit, List.mem_append] at hmem
      exact hmem.resolve_left fun h => hj (mem_roundedUp.2 h)
    have hpairwise := @pairwise_byRemainder k q
    rw [← hsplit, List.pairwise_append] at hpairwise
    obtain ⟨hle, hfirst⟩ := hpairwise.2.2 _ (mem_roundedUp.1 hi) _ hjmem
    rcases (not_lt.1 hle).lt_or_eq with hlt | heq
    · exact .inl hlt
    · exact .inr ⟨heq.symm, hfirst heq.not_lt⟩

end Fractions

/-! ## The allocation -/

/-- Adding one at some places. -/
theorem getElem?_foldl_modify (es : List (PyFloat × ℕ)) (l : List ℤ) (i : ℕ) :
    (es.foldl (fun l e => l.modify e.2 (· + 1)) l)[i]? =
      l[i]?.map (· + ((es.map Prod.snd).count i : ℤ)) := by
  induction es generalizing l with
  | nil => simp
  | cons e es ih =>
    rw [List.foldl_cons, ih, List.getElem?_modify, Option.map_eq_map, Option.map_map, List.map_cons,
      List.count_cons]
    refine congrFun (congrArg _ (funext fun x => ?_)) _
    by_cases h : e.2 = i
    · simp [h]
      omega
    · simp [h]

section Allocation

variable {k : ℕ} {s : Fin k → ℚ} {n : ℤ} {sizer : ClusterSizer}

/-- The units of each worker. -/
def units (n : ℤ) (s : Fin k → ℚ) (i : Fin k) : ℤ :=
  share (quota n s) (roundedUp (quota n s) (leftover n (quota n s)).toNat) i

theorem sum_pos_of_pos (hk : 0 < k) (hs : ∀ i, 0 < s i) : 0 < ∑ i, s i :=
  Finset.sum_pos (fun i _ => hs i) ⟨⟨0, hk⟩, Finset.mem_univ _⟩

theorem rounded_units (hk : 0 < k) (hs : ∀ i, 0 < s i) (n : ℤ) :
    RoundedUp n (quota n s) (roundedUp (quota n s) (leftover n (quota n s)).toNat) :=
  roundedUp_spec (sum_quota (sum_pos_of_pos hk hs).ne')

/-- **In exact arithmetic the allocation succeeds, and is the apportionment of the units.** -/
theorem allocateUnits_eq (hexact : sizer.round = .finite) (hk : 0 < k) (hs : ∀ i, 0 < s i) (n : ℤ) :
    allocateUnits sizer n (floats s) = some (List.ofFn (units n s)) := by
  have hsum := sum_pos_of_pos hk hs
  have hquotas : ((floats s).map fun x => PyFloat.mul sizer.round (PyFloat.ofInt sizer.round n)
      (PyFloat.div sizer.round x (PyFloat.sum sizer.round (floats s)))) = floats (quota n s) := by
    rw [hexact, sum_floats, floats, List.map_ofFn]
    refine congrArg List.ofFn (funext fun i => ?_)
    simp [PyFloat.div, PyFloat.mul, PyFloat.ofInt, hsum.ne', quota]
  have hleft : n - (List.ofFn fun i => ⌊quota n s i⌋).sum = leftover n (quota n s) := by
    rw [List.sum_ofFn, leftover]
  have hcard := leftover_le_card (sum_quota (n := n) hsum.ne')
  rw [Fintype.card_fin] at hcard
  unfold allocateUnits
  dsimp only
  rw [hquotas, hexact]
  simp only [mapM_floor_floats, Option.bind_eq_bind, Option.bind_some, zipIdx_fractions, hleft]
  rw [if_pos (by rw [List.length_map, List.length_ofFn]; omega), insertionSort_fractions]
  refine congrArg some (List.ext_getElem? fun i => ?_)
  rw [getElem?_foldl_modify, List.getElem?_ofFn, List.getElem?_ofFn]
  split_ifs with hi
  · rw [count_roundedUp (quota n s) _ ⟨i, hi⟩, Option.map_some, units, share]
    push_cast
    rfl
  · rfl

/-- Units that are shared out whole and in proportion to the speeds. -/
structure Fair (n : ℤ) (s : Fin k → ℚ) (us : Fin k → ℤ) : Prop where
  nonneg : ∀ i, 0 ≤ us i
  sum_eq : ∑ i, us i = n
  near_quota : ∀ i, |(us i : ℚ) - quota n s i| < 1
  mono : ∀ i j, s i < s j → us i ≤ us j

theorem fair_units (hk : 0 < k) (hs : ∀ i, 0 < s i) (hn : 0 < n) : Fair n s (units n s) := by
  have hsum := sum_pos_of_pos hk hs
  have hrounded := rounded_units hk hs n
  have hq : ∑ i, quota n s i = n := sum_quota hsum.ne'
  refine ⟨fun i => ?_, sum_share hrounded, abs_share_sub_quota_lt hrounded hq, fun i j hij => ?_⟩
  · exact share_nonneg (quota_nonneg hn.le (fun j => (hs j).le) i)
  · exact share_le_share hrounded (quota_lt_quota hn hsum hij)

/-- A worker's quota reaches the minimum, or it is less than one short and its remainder is among
those that are rounded up. -/
def ReachesMinimum (minimum n : ℤ) (s : Fin k → ℚ) (i : Fin k) : Prop :=
  (minimum : ℚ) ≤ quota n s i ∨ ((minimum - 1 : ℤ) : ℚ) ≤ quota n s i ∧
    (rank (quota n s) i : ℤ) < leftover n (quota n s)

instance (minimum n : ℤ) (s : Fin k → ℚ) (i : Fin k) : Decidable (ReachesMinimum minimum n s i) :=
  inferInstanceAs (Decidable (_ ∨ _ ∧ _))

theorem le_units_iff (hk : 0 < k) (hs : ∀ i, 0 < s i) {minimum : ℤ} {i : Fin k} :
    minimum ≤ units n s i ↔ ReachesMinimum minimum n s i :=
  le_share_iff (rounded_units hk hs n) minimum

end Allocation

/-! ## Groups -/

section Groups

variable {sizer : ClusterSizer} {request : SizingRequest} {speed : WorkerResourceProfile → ℚ}
  {group sorted : List WorkerResourceProfile} {deadline : Option PyFloat}
  {rejected : List (String × List String)} {d : SizingDecision}

/-- The workers have positive speeds. -/
def HasSpeeds (sizer : ClusterSizer) (request : SizingRequest) (speed : WorkerResourceProfile → ℚ)
    (group : List WorkerResourceProfile) : Prop :=
  ∀ p ∈ group, workerSpeed sizer request p = .finite (speed p) ∧ 0 < speed p

/-- The speeds of a group. -/
def groupSpeeds (speed : WorkerResourceProfile → ℚ) (group : List WorkerResourceProfile) :
    Fin group.length → ℚ := fun i => speed (group.get i)

theorem groupSpeeds_pos (hspeed : HasSpeeds sizer request speed group) (i : Fin group.length) :
    0 < groupSpeeds speed group i :=
  (hspeed _ (group.get_mem i)).2

theorem floats_groupSpeeds (hspeed : HasSpeeds sizer request speed group) :
    floats (groupSpeeds speed group) = group.map (workerSpeed sizer request) := by
  refine List.ext_getElem (by simp [floats]) fun i hi hi' => ?_
  rw [List.length_map] at hi'
  simp [floats, groupSpeeds, (hspeed _ (List.getElem_mem hi')).1]

/-- The units of a group. -/
def groupUnits (speed : WorkerResourceProfile → ℚ) (n : ℤ) (group : List WorkerResourceProfile) :
    List ℤ := List.ofFn (units n (groupSpeeds speed group))

theorem allocateUnits_group (hexact : sizer.round = .finite) (hgroup : group ≠ [])
    (hspeed : HasSpeeds sizer request speed group) (n : ℤ) :
    allocateUnits sizer n (group.map (workerSpeed sizer request)) =
      some (groupUnits speed n group) := by
  rw [← floats_groupSpeeds hspeed]
  exact allocateUnits_eq hexact (List.length_pos_iff.2 hgroup) (groupSpeeds_pos hspeed) n

/-- The units of the details of a group. -/
theorem forall_groupDetails {minimum n : ℤ} :
    (∀ w ∈ groupDetails sizer request group (groupUnits speed n group), minimum ≤
      w.allocatedUnits) ↔
      ∀ i, minimum ≤ units n (groupSpeeds speed group) i := by
  have hsnd : (group.zip (groupUnits speed n group)).map Prod.snd = groupUnits speed n group :=
    List.map_snd_zip (by simp [groupUnits])
  have hunits : (∀ w ∈ groupDetails sizer request group (groupUnits speed n group),
      minimum ≤ w.allocatedUnits) ↔ ∀ u ∈ groupUnits speed n group, minimum ≤ u := by
    rw [← hsnd]
    simp only [groupDetails, List.forall_mem_map]
    rw [hsnd]
  rw [hunits, groupUnits, List.forall_mem_ofFn_iff]

theorem take_ne_nil {i : ℕ} (hi : i < sorted.length) : sorted.take (i + 1) ≠ [] := by
  intro h
  rw [List.take_eq_nil_iff] at h
  rcases h with h | rfl
  · omega
  · cases hi

/-- **The groups that are evaluated**: the first workers, with their units and a projection after
those of the smaller groups. -/
theorem groupEvaluations_eq (hexact : sizer.round = .finite)
    (hspeed : HasSpeeds sizer request speed sorted) {k : ℕ} (hk : k ≤ sorted.length) :
    ∃ evaluations details,
      groupEvaluations sizer request deadline sorted k = some (evaluations, details) ∧
      evaluations.length = k ∧ details.length = k ∧
      ∀ i < k, details[i]? = some (groupDetails sizer request (sorted.take (i + 1))
          (groupUnits speed request.totalUnits (sorted.take (i + 1)))) ∧
        evaluations[i]? = some (groupEvaluation sizer request deadline (sorted.take (i + 1))
          (groupDetails sizer request (sorted.take (i + 1))
            (groupUnits speed request.totalUnits (sorted.take (i + 1)))) (evaluations.take i)) := by
  induction k with
  | zero => exact ⟨[], [], rfl, rfl, rfl, fun i hi => absurd hi (Nat.not_lt_zero i)⟩
  | succ k ih =>
    obtain ⟨evaluations, details, h, hlength, hlength', hall⟩ := ih (by omega)
    have hunits := allocateUnits_group hexact (take_ne_nil hk)
      (fun p hp => hspeed p (List.mem_of_mem_take hp)) request.totalUnits
    refine ⟨_, _,
      by simp only [groupEvaluations, h, hunits, Option.bind_eq_bind, Option.bind_some]; rfl,
      by simp [hlength], by simp [hlength'], fun i hi => ?_⟩
    rcases Nat.lt_succ_iff_lt_or_eq.1 hi with hlt | rfl
    · obtain ⟨hdetails, hevaluation⟩ := hall i hlt
      rw [List.getElem?_append_left (by omega), List.getElem?_append_left (by omega),
        List.take_append_of_le_length (by omega)]
      exact ⟨hdetails, hevaluation⟩
    · have htake : evaluations.take i = evaluations := List.take_of_length_le hlength.le
      rw [List.getElem?_append_right (by omega), List.getElem?_append_right (by omega),
        List.take_append_of_le_length (by omega), htake, hlength, hlength', Nat.sub_self]
      exact ⟨rfl, rfl⟩

theorem maxPossible_le (hsorted : sorted ≠ []) : maxPossible request sorted ≤ sorted.length := by
  have hpos : 1 ≤ (sorted.length : ℤ) := by
    have := List.length_pos_iff.2 hsorted
    omega
  unfold maxPossible
  cases request.maxWorkersLimit with
  | none => simp only [Option.elim_none]; omega
  | some limit => simp only [Option.elim_some]; omega

theorem maxPossible_pos : 1 ≤ maxPossible request sorted := by
  unfold maxPossible
  dsimp only
  omega

theorem workerDetails_grouped (hexact : sizer.round = .finite) (hsorted : sorted ≠ [])
    (hspeed : HasSpeeds sizer request speed sorted)
    (h : grouped sizer request deadline rejected sorted = some d)
    (hk : 1 ≤ d.recommendedWorkerCount) :
    d.recommendedWorkerCount ≤ maxPossible request sorted ∧
      d.workerDetails = groupDetails sizer request (sorted.take d.recommendedWorkerCount)
        (groupUnits speed request.totalUnits (sorted.take d.recommendedWorkerCount)) := by
  obtain ⟨evaluations, details, hevaluations, hlength, -, hall⟩ :=
    @groupEvaluations_eq sizer request speed sorted deadline hexact hspeed _
      (@maxPossible_le request sorted hsorted)
  unfold grouped at h
  simp only [hevaluations, Option.bind_eq_bind, Option.bind_some] at h
  split at h
  · cases h
  · obtain ⟨chosen, hchosen, h⟩ := Option.bind_eq_some_iff.1 h
    obtain rfl := Option.some.inj h
    have hlt := (List.getElem?_eq_some_iff.1 hchosen).1
    dsimp only at hk hlt ⊢
    rw [hlength] at hlt
    obtain ⟨hdetails, -⟩ := hall _ hlt
    rw [Nat.sub_add_cancel hk] at hdetails
    exact ⟨by omega, by rw [hdetails, Option.getD_some]⟩

end Groups

/-- **The allocation of units.** Every group that is considered gets whole units that are all the
units, each less than one away from its worker's quota, and a faster worker never fewer than a
slower one. The workers of the group that is chosen have the minimum each just when each quota
reaches the minimum, or is less than one short of it and is rounded up. -/
theorem unit_allocation (sizer : ClusterSizer) (request : SizingRequest)
    (speed : WorkerResourceProfile → ℚ) (sorted : List WorkerResourceProfile)
    (hexact : sizer.round = .finite) (hunits : 2 ≤ request.totalUnits) (hsorted : sorted ≠ [])
    (hspeed : HasSpeeds sizer request speed sorted) :
    (∀ k, 1 ≤ k → k ≤ maxPossible request sorted →
      ∃ us, allocateUnits sizer request.totalUnits
          ((sorted.take k).map (workerSpeed sizer request)) = some (List.ofFn us) ∧
        Fair request.totalUnits (groupSpeeds speed (sorted.take k)) us) ∧
    ∀ deadline rejected d, grouped sizer request deadline rejected sorted = some d →
      2 ≤ d.recommendedWorkerCount →
      ((∀ w ∈ d.workerDetails, request.minUnitsPerWorker ≤ w.allocatedUnits) ↔
        ∀ i, ReachesMinimum request.minUnitsPerWorker request.totalUnits
          (groupSpeeds speed (sorted.take d.recommendedWorkerCount)) i) := by
  have htake : ∀ k, 1 ≤ k → k ≤ maxPossible request sorted →
      sorted.take k ≠ [] ∧ HasSpeeds sizer request speed (sorted.take k) := by
    intro k hk hle
    refine ⟨?_, fun p hp => hspeed p (List.mem_of_mem_take hp)⟩
    have hlength := @maxPossible_le request sorted hsorted
    rw [← Nat.sub_add_cancel hk]
    exact take_ne_nil (by omega)
  constructor
  · intro k hk hle
    obtain ⟨hne, hspeeds⟩ := htake k hk hle
    exact ⟨_, allocateUnits_group hexact hne hspeeds request.totalUnits,
      fair_units (List.length_pos_iff.2 hne) (groupSpeeds_pos hspeeds) (by omega)⟩
  · intro deadline rejected d h hk
    obtain ⟨hle, hdetails⟩ := workerDetails_grouped hexact hsorted hspeed h (by omega)
    obtain ⟨hne, hspeeds⟩ := htake _ (by omega) hle
    rw [hdetails, forall_groupDetails]
    exact forall_congr' fun i => le_units_iff (List.length_pos_iff.2 hne) (groupSpeeds_pos hspeeds)

/-! ## Samples -/

/-- A sizer that computes without rounding. -/
def exactSizer : ClusterSizer := { round := PyFloat.finite, floatRepr := fun _ => "0.0" }

/-- Four units for workers `a` and `b`, of which `b` may be slow, with at least two units for each
worker. -/
def skewedRequest (slow : ℚ) : SizingRequest where
  requestId := "r"
  totalUnits := 4
  minUnitsPerWorker := 2
  unitWorkloadSeconds := some 10
  deadlineSeconds := some 39
  coordinationOverheadPerWorkerSeconds := some 0
  workerSpeedMultipliers := (∅ : Dict String PyFloat).set "b" (.finite slow)

/-- The two workers. -/
def skewedWorkers : List WorkerResourceProfile :=
  ["a", "b"].map fun wid =>
    { workerId := wid, endpointUrl := "", ipAddress := "", cpuCoresTotal := 4,
      cpuUtilizationPercent := 0, ramTotalBytes := 8, ramAvailableBytes := 8 }

/-- The speeds of the two workers. -/
def skewedSpeed (slow : ℚ) (p : WorkerResourceProfile) : ℚ := if p.workerId = "b" then slow else 1

instance (sizer : ClusterSizer) (request : SizingRequest) (speed : WorkerResourceProfile → ℚ)
    (group : List WorkerResourceProfile) : Decidable (HasSpeeds sizer request speed group) :=
  inferInstanceAs (Decidable (∀ p ∈ group, _ ∧ _))

/-- Two workers of the same speed have two units each. -/
theorem unit_allocation_even :
    ∃ d, grouped exactSizer (skewedRequest 1) (some 39) [] skewedWorkers = some d ∧
      ∀ w ∈ d.workerDetails, 2 ≤ w.allocatedUnits := by
  have hrun : (grouped exactSizer (skewedRequest 1) (some 39) [] skewedWorkers).map
      (·.recommendedWorkerCount) = some 2 := by decide +kernel
  obtain ⟨d, hd, hk⟩ := Option.map_eq_some_iff.1 hrun
  refine ⟨d, hd, ((unit_allocation exactSizer (skewedRequest 1) (skewedSpeed 1) skewedWorkers rfl
    (by decide) (by decide) (by decide +kernel)).2 _ _ d hd hk.ge).2 ?_⟩
  rw [hk]
  decide +kernel

/-- A worker with a third of the other's speed is left with one unit. -/
theorem slow_worker_below_minimum :
    ¬ ∀ (request : SizingRequest) (speed : WorkerResourceProfile → ℚ)
      (sorted : List WorkerResourceProfile) (deadline : Option PyFloat) (d : SizingDecision),
      2 ≤ request.totalUnits → HasSpeeds exactSizer request speed sorted →
      grouped exactSizer request deadline [] sorted = some d → 2 ≤ d.recommendedWorkerCount →
      ∀ w ∈ d.workerDetails, request.minUnitsPerWorker ≤ w.allocatedUnits := by
  intro hclaim
  have hrun : (grouped exactSizer (skewedRequest (1 / 3)) (some 39) [] skewedWorkers).map
      (fun d => (d.recommendedWorkerCount, d.workerDetails.map (·.allocatedUnits))) =
      some (2, [3, 1]) := by decide +kernel
  obtain ⟨d, hd, hv⟩ := Option.map_eq_some_iff.1 hrun
  obtain ⟨hk, hallocated⟩ := Prod.mk.inj hv
  have hall := hclaim _ (skewedSpeed (1 / 3)) _ _ d (by decide) (by decide +kernel) hd
    hk.ge
  have hone : (1 : ℤ) ∈ d.workerDetails.map (·.allocatedUnits) := by simp [hallocated]
  obtain ⟨w, hw, hunits⟩ := List.mem_map.1 hone
  exact absurd (hall w hw) (by rw [hunits]; decide)

end Aidars.Sizing
