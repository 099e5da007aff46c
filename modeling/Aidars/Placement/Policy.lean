import Aidars.Placement.Allocation
import Mathlib.Order.Bounds.Basic

/-!
# The policy of a sizing decision

A decision is about the wall clocks of the groups of the first `1, 2, …, K` workers. `Meets`, `Best`
and `Expands` say, of wall clocks alone, which group a deadline asks for, which one is the best when
none meets the deadline, and how far a group is expanded when there is none. The wall clocks need
not fall with the size of the group, so these are different conditions.

In exact arithmetic the decision of `sizeCluster` is the one that they describe, and its selected
and spare workers are the eligible workers (`sizing_decision`).
-/

namespace Aidars.Sizing

/-! ## Decisions about wall clocks -/

section Walls

variable (K : ℕ) (wall : ℕ → ℚ)

/-- The groups whose wall clock is at most a target. -/
def Within (target : ℚ) : Set ℕ := {k | 1 ≤ k ∧ k ≤ K ∧ wall k ≤ target}

/-- The groups with the least wall clock. -/
def Best : Set ℕ := {k | 1 ≤ k ∧ k ≤ K ∧ ∀ j, 1 ≤ j → j ≤ K → wall k ≤ wall j}

/-- The part of a positive wall clock that another one saves. -/
def gain (before after : ℚ) : ℚ := if 0 < before then (before - after) / before else 0

/-- The groups that can be reached by steps that each lower the wall clock by a part of at least the
threshold. -/
def Expands (threshold : ℚ) : Set ℕ :=
  {k | 1 ≤ k ∧ k ≤ K ∧ ∀ j, 2 ≤ j → j ≤ k →
    wall j < wall (j - 1) ∧ threshold ≤ gain (wall (j - 1)) (wall j)}

/-- The group that is chosen. With a deadline it is the least one that meets it with the margin, or
else the least that meets it, or else the least of the best; without one it is the greatest that can
be reached by expansion. -/
def ChosenSize (deadline : Option ℚ) (margin threshold : ℚ) (k : ℕ) : Prop :=
  match deadline with
  | some D =>
    ((Within K wall (D * (1 - margin))).Nonempty → IsLeast (Within K wall (D * (1 - margin))) k) ∧
    (Within K wall (D * (1 - margin)) = ∅ → (Within K wall D).Nonempty →
      IsLeast (Within K wall D) k) ∧
    (Within K wall D = ∅ → IsLeast (Best K wall) k)
  | none => IsGreatest (Expands K wall threshold) k

end Walls

/-! ## Lists of projections -/

/-- The projections of the groups of the first `1, 2, …` workers, with their wall clocks. -/
structure Projections (wall : ℕ → ℚ) (evaluations : List GroupSizingEvaluation) : Prop where
  size : ∀ i (hi : i < evaluations.length), evaluations[i].groupSize = i + 1
  wallClock : ∀ i (hi : i < evaluations.length),
    evaluations[i].wallClockSeconds = .finite (wall (i + 1))
  marginal : ∀ i (hi : i < evaluations.length), 0 < i →
    evaluations[i].marginalSpeedup = .finite (gain (wall i) (wall (i + 1)))

section Lists

variable {wall : ℕ → ℚ} {evaluations : List GroupSizingEvaluation} {e : GroupSizingEvaluation}
  {target : ℚ}

/-- The first projection within a target is the least group within it. -/
theorem isLeast_of_find (hp : Projections wall evaluations)
    (h : evaluations.find? (·.wallClockSeconds.le (.finite target)) = some e) :
    IsLeast (Within evaluations.length wall target) e.groupSize := by
  obtain ⟨hle, i, hi, rfl, hfirst⟩ := List.find?_eq_some_iff_getElem.1 h
  rw [hp.wallClock i hi, PyFloat.le_finite] at hle
  rw [hp.size i hi]
  refine ⟨⟨by omega, by omega, hle⟩, fun k hk => ?_⟩
  obtain ⟨hpos, hk, hwithin⟩ := hk
  by_contra hlt
  have hnot := hfirst (k - 1) (by omega)
  rw [hp.wallClock (k - 1) (by omega), Nat.sub_add_cancel hpos] at hnot
  rw [PyFloat.le_finite.2 hwithin] at hnot
  cases hnot

theorem within_eq_empty_of_find (hp : Projections wall evaluations)
    (h : evaluations.find? (·.wallClockSeconds.le (.finite target)) = none) :
    Within evaluations.length wall target = ∅ := by
  refine Set.eq_empty_iff_forall_notMem.2 fun k hk => ?_
  obtain ⟨hpos, hk, hwithin⟩ := hk
  have hnot := List.find?_eq_none.1 h evaluations[k - 1] (List.getElem_mem (by omega))
  rw [hp.wallClock (k - 1) (by omega), Nat.sub_add_cancel hpos, PyFloat.le_finite] at hnot
  exact hnot hwithin

/-- The fastest of some projections with ascending sizes: none is faster, and the smaller ones are
slower. -/
theorem fastest_spec {w : GroupSizingEvaluation → ℚ} {e : GroupSizingEvaluation}
    {es : List GroupSizingEvaluation}
    (hw : ∀ x ∈ e :: es, x.wallClockSeconds = .finite (w x))
    (hsize : (e :: es).Pairwise fun x y => x.groupSize < y.groupSize) :
    ∃ r ∈ e :: es, fastest (e :: es) = some r ∧
      ∀ x ∈ e :: es, w r ≤ w x ∧ (x.groupSize < r.groupSize → w r < w x) := by
  induction es generalizing e with
  | nil => exact ⟨e, List.mem_singleton_self e, rfl, by simp⟩
  | cons y ys ih =>
    obtain ⟨hey, hrest⟩ := List.pairwise_cons.1 hsize
    obtain ⟨hwe, hwrest⟩ := List.forall_mem_cons.1 hw
    obtain ⟨hwy, hwys⟩ := List.forall_mem_cons.1 hwrest
    by_cases hlt : w y < w e
    · -- the next projection is faster
      obtain ⟨r, hr, hfast, hall⟩ := ih hwrest hrest
      have hstep : fastest (e :: y :: ys) = fastest (y :: ys) := by
        simp only [fastest, List.foldl_cons]
        rw [hwe, hwy, PyFloat.lt_finite.2 hlt]
        rfl
      have hry := (hall y List.mem_cons_self).1
      refine ⟨r, List.mem_cons_of_mem e hr, hstep ▸ hfast, List.forall_mem_cons.2 ⟨?_, hall⟩⟩
      exact ⟨(hry.trans_lt hlt).le, fun _ => hry.trans_lt hlt⟩
    · obtain ⟨hfirst, hys⟩ := List.pairwise_cons.1 hrest
      rw [List.forall_mem_cons] at hey
      obtain ⟨r, hr, hfast, hall⟩ := ih (e := e) (List.forall_mem_cons.2 ⟨hwe, hwys⟩)
        (List.pairwise_cons.2 ⟨hey.2, hys⟩)
      have hstep : fastest (e :: y :: ys) = fastest (e :: ys) := by
        simp only [fastest, List.foldl_cons]
        rw [hwe, hwy, if_neg (by rw [PyFloat.lt_finite]; exact hlt)]
      obtain ⟨hre, hys⟩ := List.forall_mem_cons.1 hall
      have hle := hre.1.trans (not_lt.1 hlt)
      refine ⟨r, ?_, hstep ▸ hfast, List.forall_mem_cons.2 ⟨hre, List.forall_mem_cons.2 ⟨⟨hle, ?_⟩,
        hys⟩⟩⟩
      · rcases List.mem_cons.1 hr with rfl | hr
        · exact List.mem_cons_self
        · exact List.mem_cons_of_mem e (List.mem_cons_of_mem y hr)
      · intro hyr
        rcases List.mem_cons.1 hr with rfl | hr
        · omega
        · exact (hre.2 (hey.2 r hr)).trans_le (not_lt.1 hlt)

theorem Projections.exists_mem (hp : Projections wall evaluations)
    (he : e ∈ evaluations) : 1 ≤ e.groupSize ∧ e.groupSize ≤ evaluations.length ∧
      e.wallClockSeconds = .finite (wall e.groupSize) := by
  obtain ⟨i, hi, rfl⟩ := List.getElem_of_mem he
  rw [hp.size i hi]
  exact ⟨by omega, by omega, hp.wallClock i hi⟩

theorem Projections.pairwise (hp : Projections wall evaluations) :
    evaluations.Pairwise fun x y => x.groupSize < y.groupSize := by
  refine List.pairwise_iff_getElem.2 fun i j hi hj hij => ?_
  rw [hp.size i hi, hp.size j hj]
  omega

theorem isLeast_of_fastest (hp : Projections wall evaluations) (hne : evaluations ≠ []) :
    ∃ r, fastest evaluations = some r ∧ IsLeast (Best evaluations.length wall) r.groupSize := by
  obtain ⟨e, es, rfl⟩ := List.exists_cons_of_ne_nil hne
  obtain ⟨r, hr, hfast, hall⟩ := @fastest_spec (fun x => wall x.groupSize) e es
    (fun x hx => (hp.exists_mem hx).2.2) hp.pairwise
  have hat : ∀ k, 1 ≤ k → k ≤ (e :: es).length →
      wall r.groupSize ≤ wall k ∧ (k < r.groupSize → wall r.groupSize < wall k) := by
    intro k hpos hk
    have hmem := List.getElem_mem (l := e :: es) (n := k - 1) (by omega)
    have hsize := hp.size (k - 1) (by omega)
    rw [Nat.sub_add_cancel hpos] at hsize
    have hk := hall _ hmem
    rwa [hsize] at hk
  obtain ⟨hpos, hle, -⟩ := hp.exists_mem hr
  refine ⟨r, hfast, ⟨hpos, hle, fun j hj hj' => (hat j hj hj').1⟩, fun k hk => ?_⟩
  by_contra hlt
  have hstrict := (hat k hk.1 hk.2.1).2 (not_le.1 hlt)
  exact absurd (hk.2.2 _ hpos hle) (not_le.2 hstrict)

/-- Expansion from one group over the next ones: each step that was taken improves on the one
before, and the next one would not. -/
theorem expand_spec {threshold : ℚ} {previous : GroupSizingEvaluation}
    {es : List GroupSizingEvaluation}
    (hprevious : previous.wallClockSeconds = .finite (wall previous.groupSize))
    (hes : ∀ i (hi : i < es.length), es[i].groupSize = previous.groupSize + i + 1 ∧
      es[i].wallClockSeconds = .finite (wall (previous.groupSize + i + 1)) ∧
      es[i].marginalSpeedup =
        .finite (gain (wall (previous.groupSize + i)) (wall (previous.groupSize + i + 1)))) :
    let k := (expand (.finite threshold) previous es).1
    previous.groupSize ≤ k ∧ k ≤ previous.groupSize + es.length ∧
      (∀ j, previous.groupSize < j → j ≤ k →
        wall j < wall (j - 1) ∧ threshold ≤ gain (wall (j - 1)) (wall j)) ∧
      (k < previous.groupSize + es.length →
        ¬ (wall (k + 1) < wall k ∧ threshold ≤ gain (wall k) (wall (k + 1)))) := by
  induction es generalizing previous with
  | nil =>
    dsimp only [expand, List.length_nil]
    exact ⟨le_rfl, le_rfl, fun j hj hj' => by omega, fun h => by omega⟩
  | cons e es ih =>
    obtain ⟨hsize, hwall, hgain⟩ := hes 0 (by simp)
    rw [List.getElem_cons_zero, Nat.add_zero] at hsize hwall hgain
    unfold expand
    rw [hprevious, hwall, hgain]
    by_cases hlower : wall (previous.groupSize + 1) < wall previous.groupSize
    · rw [if_neg (by rw [PyFloat.le_finite]; exact not_le.2 hlower)]
      by_cases hthreshold :
          threshold ≤ gain (wall previous.groupSize) (wall (previous.groupSize + 1))
      · rw [if_neg (by rw [PyFloat.lt_finite]; exact not_lt.2 hthreshold)]
        have hnext := @ih e (by rw [hwall, hsize]) fun i hi => by
          have hi' := hes (i + 1) (by simpa using hi)
          rw [List.getElem_cons_succ] at hi'
          rw [hsize, show previous.groupSize + 1 + i = previous.groupSize + (i + 1) by omega]
          exact hi'
        dsimp only at hnext ⊢
        rw [hsize] at hnext
        obtain ⟨hge, hle, hsteps, hstop⟩ := hnext
        rw [List.length_cons]
        refine ⟨by omega, by omega, fun j hj hj' => ?_, fun h => hstop (by omega)⟩
        rcases Nat.lt_or_ge (previous.groupSize + 1) j with hlt | hge'
        · exact hsteps j hlt hj'
        · obtain rfl : j = previous.groupSize + 1 := by omega
          exact ⟨hlower, hthreshold⟩
      · rw [if_pos (by rw [PyFloat.lt_finite]; exact not_le.1 hthreshold)]
        exact ⟨le_rfl, by simp, fun j hj hj' => by omega, fun _ h => hthreshold h.2⟩
    · rw [if_pos (by rw [PyFloat.le_finite]; exact not_lt.1 hlower)]
      exact ⟨le_rfl, by simp, fun j hj hj' => by omega, fun _ h => hlower h.1⟩

theorem safetyTarget_eq {sizer : ClusterSizer} {margin : ℚ} (hexact : sizer.round = .finite)
    (hmargin : sizer.safetyMargin = .finite margin) (D : ℚ) :
    PyFloat.mul sizer.round (.finite D) (PyFloat.sub sizer.round 1 sizer.safetyMargin) =
      .finite (D * (1 - margin)) := by
  have hone : (1 : PyFloat) = .finite 1 := rfl
  rw [hexact, hmargin, hone]
  simp [PyFloat.mul, PyFloat.sub, PyFloat.neg, PyFloat.add, sub_eq_add_neg]

theorem chosenSize_of_within {K k : ℕ} {D margin threshold : ℚ}
    (hk : IsLeast (Within K wall (D * (1 - margin))) k)
    (htarget : D * (1 - margin) ≤ D) : ChosenSize K wall (some D) margin threshold k := by
  have hne : (Within K wall (D * (1 - margin))).Nonempty := ⟨k, hk.1⟩
  refine ⟨fun _ => hk, fun hempty => ?_, fun hempty => ?_⟩
  · rw [hempty] at hne
    exact absurd hne Set.not_nonempty_empty
  · have hwithin : k ∈ Within K wall D := ⟨hk.1.1, hk.1.2.1, hk.1.2.2.trans htarget⟩
    rw [hempty] at hwithin
    exact absurd hwithin (Set.notMem_empty k)

/-- **The policy chooses the group that the wall clocks ask for.** -/
theorem choosePolicy_spec {sizer : ClusterSizer} {request : SizingRequest} {margin threshold : ℚ}
    {deadline : Option ℚ} {first : GroupSizingEvaluation} {rest : List GroupSizingEvaluation}
    (hexact : sizer.round = .finite) (hmargin : sizer.safetyMargin = .finite margin)
    (hnonneg : 0 ≤ margin)
    (hthreshold : request.marginalBenefitThreshold.getD sizer.marginalBenefitThreshold =
      .finite threshold)
    (hdeadline : ∀ D ∈ deadline, 0 ≤ D) (hp : Projections wall (first :: rest)) :
    let choice := choosePolicy sizer request (deadline.map .finite) first rest
    ChosenSize (first :: rest).length wall deadline margin threshold choice.1 ∧
      (1 ≤ choice.1 ∧ choice.1 ≤ (first :: rest).length) ∧
      (choice.2.2 = true ↔ ∀ D ∈ deadline, (Within (first :: rest).length wall D).Nonempty) := by
  have hfirst : first.wallClockSeconds = .finite (wall 1) := hp.wallClock 0 (by simp)
  cases deadline with
  | none =>
    have hsize : first.groupSize = 1 := hp.size 0 (by simp)
    have hexpand := @expand_spec wall threshold first rest (by rw [hsize, hfirst]) fun i hi => by
      have hi' : i + 1 < (first :: rest).length := by simpa using hi
      have h1 := hp.size (i + 1) hi'
      have h2 := hp.wallClock (i + 1) hi'
      have h3 := hp.marginal (i + 1) hi' (by omega)
      rw [List.getElem_cons_succ] at h1 h2 h3
      rw [hsize, show 1 + i = i + 1 by omega]
      exact ⟨h1, h2, h3⟩
    dsimp only at hexpand
    rw [hsize] at hexpand
    obtain ⟨hge, hle, hsteps, hstop⟩ := hexpand
    simp only [choosePolicy, Option.map_none, hthreshold]
    refine ⟨⟨⟨hge, by rw [List.length_cons]; omega, fun j hj hj' => hsteps j hj hj'⟩, ?_⟩,
      ⟨hge, by rw [List.length_cons]; omega⟩, by simp⟩
    intro k hk
    by_contra hlt
    rw [not_le] at hlt
    have hK := hk.2.1
    rw [List.length_cons] at hK
    have hnext := hk.2.2 _ (by omega) (Nat.succ_le_of_lt hlt)
    exact hstop (by omega) hnext
  | some D =>
    have hD : 0 ≤ D := hdeadline D rfl
    have htarget : D * (1 - margin) ≤ D := by nlinarith
    have hwithin : ∀ {k : ℕ}, k ∈ Within (first :: rest).length wall (D * (1 - margin)) →
        (Within (first :: rest).length wall D).Nonempty := fun hk =>
      ⟨_, hk.1, hk.2.1, hk.2.2.trans htarget⟩
    simp only [choosePolicy, Option.map_some, safetyTarget_eq hexact hmargin]
    by_cases hone : wall 1 ≤ D * (1 - margin)
    · have hmem : 1 ∈ Within (first :: rest).length wall (D * (1 - margin)) :=
        ⟨le_rfl, by simp, hone⟩
      have hleast : IsLeast (Within (first :: rest).length wall (D * (1 - margin))) 1 :=
        ⟨hmem, fun k hk => hk.1⟩
      rw [if_pos (by rw [hfirst, PyFloat.le_finite]; exact hone)]
      exact ⟨chosenSize_of_within hleast htarget, ⟨le_rfl, by simp⟩, by simpa using hwithin hmem⟩
    · rw [if_neg (by rw [hfirst, PyFloat.le_finite]; exact hone)]
      cases hsafe : (first :: rest).find?
          (·.wallClockSeconds.le (.finite (D * (1 - margin)))) with
      | some e =>
        have hleast := isLeast_of_find hp hsafe
        simp only [Option.some_or]
        exact ⟨chosenSize_of_within hleast htarget, ⟨hleast.1.1, hleast.1.2.1⟩,
          by simpa using hwithin hleast.1⟩
      | none =>
        have hmargin := within_eq_empty_of_find hp hsafe
        have hnot : ¬ (Within (first :: rest).length wall (D * (1 - margin))).Nonempty := by
          rw [hmargin]
          exact Set.not_nonempty_empty
        cases hmeets : (first :: rest).find? (·.wallClockSeconds.le (.finite D)) with
        | some e =>
          have hleast := isLeast_of_find hp hmeets
          simp only [Option.none_or]
          refine ⟨⟨fun h => absurd h hnot, fun _ _ => hleast, fun hempty => ?_⟩,
            ⟨hleast.1.1, hleast.1.2.1⟩, by simpa using ⟨_, hleast.1⟩⟩
          have hmem := hleast.1
          rw [hempty] at hmem
          exact absurd hmem (Set.notMem_empty _)
        | none =>
          have hempty := within_eq_empty_of_find hp hmeets
          obtain ⟨r, hfast, hbest⟩ := isLeast_of_fastest hp (List.cons_ne_nil first rest)
          simp only [Option.none_or, hfast, Option.map_some, Option.getD_some]
          refine ⟨⟨fun h => absurd h hnot, fun _ hne => ?_, fun _ => hbest⟩,
            ⟨hbest.1.1, hbest.1.2.1⟩, ?_⟩
          · rw [hempty] at hne
            exact absurd hne Set.not_nonempty_empty
          · have hnone : ¬ (Within (first :: rest).length wall D).Nonempty := by
              rw [hempty]
              exact Set.not_nonempty_empty
            simpa using hnone

end Lists

/-! ## Exact inputs -/

/-- A number that is neither infinite nor `nan`. -/
def IsFinite (x : PyFloat) : Prop := ∃ q, x = .finite q

/-- The rational that a finite float is. -/
def toRat : PyFloat → ℚ
  | .finite q => q
  | _ => 0

theorem IsFinite.eq {x : PyFloat} (h : IsFinite x) : x = .finite (toRat x) := by
  obtain ⟨q, rfl⟩ := h
  rfl

/-- Numbers are finite, and are computed with without rounding. -/
structure Exact (sizer : ClusterSizer) (request : SizingRequest) : Prop where
  round : sizer.round = .finite
  bandwidth : IsFinite (request.networkBandwidthBytesPerSec.getD sizer.defaultNetworkBandwidth)
  overhead : IsFinite
    (request.coordinationOverheadPerWorkerSeconds.getD sizer.defaultCoordinationOverhead)
  threshold : IsFinite (request.marginalBenefitThreshold.getD sizer.marginalBenefitThreshold)
  margin : IsFinite sizer.safetyMargin
  unit : ∀ x ∈ request.unitWorkloadSeconds, IsFinite x
  speed : ∀ wid x, request.workerSpeedMultipliers.get? wid = some x → IsFinite x
  deadlineSeconds : ∀ x ∈ request.deadlineSeconds, IsFinite x
  deadlineAtUtc : ∀ x ∈ request.deadlineAtUtc, IsFinite x

section Finite

variable {sizer : ClusterSizer} {request : SizingRequest}
  {group sorted : List WorkerResourceProfile}

theorem isFinite_maxOf {l : List PyFloat} (h : ∀ x ∈ l, IsFinite x) :
    IsFinite (PyFloat.maxOf 0 l) := by
  cases l with
  | nil => exact ⟨0, rfl⟩
  | cons a l =>
    rw [List.forall_mem_cons] at h
    obtain ⟨ha, hl⟩ := h
    unfold PyFloat.maxOf
    induction l generalizing a with
    | nil => exact ha
    | cons b l ih =>
      rw [List.forall_mem_cons] at hl
      refine ih _ ?_ hl.2
      dsimp only
      split_ifs
      · exact hl.1
      · exact ha

theorem Exact.finite_workerSpeed (h : Exact sizer request) (p : WorkerResourceProfile) :
    workerSpeed sizer request p = .finite (toRat (workerSpeed sizer request p)) ∧
      0 < toRat (workerSpeed sizer request p) := by
  have hmultiplier : IsFinite ((request.workerSpeedMultipliers.get? p.workerId).getD 1) := by
    cases hx : request.workerSpeedMultipliers.get? p.workerId with
    | none => exact ⟨1, rfl⟩
    | some x => exact h.speed _ x hx
  obtain ⟨q, hq⟩ := hmultiplier
  unfold workerSpeed PyFloat.max
  rw [h.round, hq]
  split_ifs with hlt
  · rw [PyFloat.lt_finite] at hlt
    exact ⟨rfl, lt_trans (by norm_num) hlt⟩
  · exact ⟨rfl, by norm_num [toRat]⟩

theorem Exact.finite_transferTime (h : Exact sizer request) (p : WorkerResourceProfile) :
    IsFinite (transferTime sizer request p) := by
  obtain ⟨b, hb⟩ := h.bandwidth
  unfold transferTime
  dsimp only
  rw [hb, h.round]
  split_ifs with hle
  · exact ⟨0, rfl⟩
  · have hne : b ≠ 0 := by
      rintro rfl
      exact hle rfl
    exact ⟨_, by rw [PyFloat.ofInt, PyFloat.div, if_neg hne]⟩

theorem Exact.finite_computeTime (h : Exact sizer request) (units : ℤ)
    (p : WorkerResourceProfile) :
    IsFinite (computeTime sizer request units (workerSpeed sizer request p)) := by
  have hunit : IsFinite (unitSeconds request) := by
    unfold unitSeconds
    cases hx : request.unitWorkloadSeconds with
    | none => exact ⟨10, rfl⟩
    | some x => exact h.unit x hx
  obtain ⟨u, hu⟩ := hunit
  obtain ⟨hs, hpos⟩ := h.finite_workerSpeed p
  unfold computeTime
  rw [hs, hu, h.round, PyFloat.ofInt, PyFloat.mul, PyFloat.div, if_neg hpos.ne']
  exact ⟨_, rfl⟩

theorem isFinite_add (h : Exact sizer request) {a b : PyFloat} (ha : IsFinite a) (hb : IsFinite b) :
    IsFinite (PyFloat.add sizer.round a b) := by
  obtain ⟨p, rfl⟩ := ha
  obtain ⟨q, rfl⟩ := hb
  rw [h.round]
  exact ⟨p + q, rfl⟩

/-- The wall clock of a group is finite. -/
theorem Exact.finite_wallClock (h : Exact sizer request) (deadline : Option PyFloat)
    (units : List ℤ) (smaller : List GroupSizingEvaluation) :
    IsFinite (groupEvaluation sizer request deadline group
      (groupDetails sizer request group units) smaller).wallClockSeconds := by
  have hdetails :
      ∀ w ∈ groupDetails sizer request group units, IsFinite w.estimatedTotalSeconds := by
    intro w hw
    obtain ⟨⟨p, u⟩, -, rfl⟩ := List.mem_map.1 hw
    refine isFinite_add h (h.finite_transferTime p) ?_
    split_ifs
    · exact h.finite_computeTime u p
    · exact ⟨0, rfl⟩
  obtain ⟨o, ho⟩ := h.overhead
  refine isFinite_add h (isFinite_maxOf ?_) ?_
  · simpa only [List.forall_mem_map] using hdetails
  · rw [ho, h.round]
    exact ⟨_, rfl⟩

/-- The wall clock of each group size. -/
def wallOf (evaluations : List GroupSizingEvaluation) (k : ℕ) : ℚ :=
  (evaluations[k - 1]?.map fun e => toRat e.wallClockSeconds).getD 0

/-- The evaluations of the groups are projections. -/
theorem Exact.exists_projections (h : Exact sizer request) (deadline : Option PyFloat) {k : ℕ}
    (hk : k ≤ sorted.length) :
    ∃ evaluations details,
      groupEvaluations sizer request deadline sorted k = some (evaluations, details) ∧
      evaluations.length = k ∧ Projections (wallOf evaluations) evaluations ∧
      ∀ i (hi : i < evaluations.length),
        evaluations[i].workerIds = (sorted.take (i + 1)).map (·.workerId) := by
  obtain ⟨evaluations, details, hevaluations, hlength, -, hall⟩ :=
    @groupEvaluations_eq sizer request (fun p => toRat (workerSpeed sizer request p)) sorted
      deadline
      h.round (fun p _ => h.finite_workerSpeed p) k hk
  have hat : ∀ i (hi : i < evaluations.length), evaluations[i] =
      groupEvaluation sizer request deadline (sorted.take (i + 1))
        (groupDetails sizer request (sorted.take (i + 1)) (groupUnits
          (fun p => toRat (workerSpeed sizer request p)) request.totalUnits (sorted.take (i + 1))))
        (evaluations.take i) := by
    intro i hi
    have hi' := (hall i (by omega)).2
    rw [List.getElem?_eq_getElem hi] at hi'
    exact Option.some.inj hi'
  have hwall : ∀ i (hi : i < evaluations.length),
      evaluations[i].wallClockSeconds = .finite (wallOf evaluations (i + 1)) := by
    intro i hi
    have hfinite : IsFinite evaluations[i].wallClockSeconds := by
      rw [hat i hi]
      exact h.finite_wallClock deadline _ _
    rw [wallOf, Nat.add_sub_cancel, List.getElem?_eq_getElem hi]
    exact hfinite.eq
  refine ⟨evaluations, details, hevaluations, hlength, ⟨fun i hi => ?_, hwall, fun i hi hpos => ?_⟩,
    fun i hi => ?_⟩
  · rw [hat i hi]
    exact List.length_take_of_le (by omega)
  · have hi' : i - 1 < evaluations.length := by omega
    have hbefore : (evaluations.take i).getLast? = some evaluations[i - 1] := by
      rw [List.getLast?_take, if_neg (by omega), List.getElem?_eq_getElem hi', Option.some_or]
    have hmarginal : evaluations[i].marginalSpeedup =
        ((evaluations.take i).getLast?.map fun e =>
          if PyFloat.lt 0 e.wallClockSeconds then
            PyFloat.div sizer.round (PyFloat.sub sizer.round e.wallClockSeconds
              evaluations[i].wallClockSeconds) e.wallClockSeconds
          else 0).getD 0 := by
      rw [hat i hi]
      rfl
    have hzero : (0 : PyFloat) = .finite 0 := rfl
    rw [hmarginal, hbefore, Option.map_some, Option.getD_some, hwall (i - 1) hi', hwall i hi,
      Nat.sub_add_cancel hpos, hzero, h.round, gain]
    by_cases hlt : 0 < wallOf evaluations i
    · rw [if_pos (PyFloat.lt_finite.2 hlt), if_pos hlt]
      simp [PyFloat.sub, PyFloat.neg, PyFloat.add, PyFloat.div, hlt.ne', sub_eq_add_neg]
    · rw [if_neg (by rw [PyFloat.lt_finite]; exact hlt), if_neg hlt]
  · rw [hat i hi]
    rfl

end Finite

/-! ## The eligible workers -/

/-- The eligible workers, the fastest alone first. -/
def sortedEligible (sizer : ClusterSizer) (text : TextFunctions) (ctx : PlacementContext)
    (request : SizingRequest) (probe : WorkloadSpec) (profiles : List WorkerResourceProfile) :
    List WorkerResourceProfile :=
  (profiles.filter (·.workerId ∈ (profiles.filter (Placement.eligible text ctx probe)).map
    (·.workerId))).insertionSort (soloLe sizer request)

section Decision

variable {sizer : ClusterSizer} {text : TextFunctions} {ctx : PlacementContext}
  {request : SizingRequest} {probe : WorkloadSpec} {profiles sorted : List WorkerResourceProfile}
  {d : SizingDecision} {deadline : Option PyFloat} {rejected : List (String × List String)}

theorem sizeCluster_eq (hprobe : buildProbeSpec sizer request ctx.nowUtc = some probe)
    (hpartitionable : request.partitionable = true) :
    sizeCluster sizer text ctx request profiles =
      match sortedEligible sizer text ctx request probe profiles with
      | [] => some (unschedulable request (effectiveDeadline sizer request ctx.nowUtc)
          (rejections text ctx probe profiles))
      | best :: rest =>
        if request.totalUnits ≤ 1 then
          some (single sizer request (effectiveDeadline sizer request ctx.nowUtc)
            (rejections text ctx probe profiles) best rest)
        else grouped sizer request (effectiveDeadline sizer request ctx.nowUtc)
          (rejections text ctx probe profiles)
          (sortedEligible sizer text ctx request probe profiles) := by
  simp only [sizeCluster, hprobe, Option.bind_eq_bind, Option.bind_some, hpartitionable,
    Bool.not_true, Bool.false_or, decide_eq_true_eq]
  rfl

/-- With different identifiers, the sorted workers are the eligible ones. -/
theorem perm_sortedEligible (hids : (profiles.map (·.workerId)).Nodup) :
    (sortedEligible sizer text ctx request probe profiles).Perm
      (profiles.filter (Placement.eligible text ctx probe)) := by
  have hfilter : profiles.filter (fun p => p.workerId ∈
      (profiles.filter (Placement.eligible text ctx probe)).map (·.workerId)) =
      profiles.filter (Placement.eligible text ctx probe) := by
    refine List.filter_congr fun p hp => ?_
    rw [Bool.eq_iff_iff, decide_eq_true_eq, List.mem_map]
    constructor
    · rintro ⟨q, hq, hid⟩
      obtain ⟨hq, heligible⟩ := List.mem_filter.1 hq
      rwa [← List.inj_on_of_nodup_map hids hq hp hid]
    · exact fun h => ⟨p, List.mem_filter.2 ⟨hp, h⟩, rfl⟩
  unfold sortedEligible
  rw [hfilter]
  exact List.perm_insertionSort _ _

theorem selected_append_spare {ids : List String} (hids : ids.Nodup) (k : ℕ) :
    ids.take k ++ ids.filter (· ∉ ids.take k) = ids := by
  have hsplit := ids.take_append_drop k
  have hdisjoint := List.disjoint_of_nodup_append (hsplit ▸ hids)
  have hspare : ids.filter (· ∉ ids.take k) = ids.drop k := by
    calc ids.filter (· ∉ ids.take k)
        = (ids.take k ++ ids.drop k).filter (· ∉ ids.take k) := by rw [hsplit]
      _ = (ids.take k).filter (· ∉ ids.take k) ++ (ids.drop k).filter (· ∉ ids.take k) :=
          List.filter_append ..
      _ = [] ++ ids.drop k := by
          rw [List.filter_eq_nil_iff.2 fun a ha => by simpa using ha,
            List.filter_eq_self.2 fun a ha => by simpa using fun h => hdisjoint h ha]
      _ = ids.drop k := List.nil_append _
  rw [hspare, hsplit]

theorem exists_deadline (hvalid : request.isValid = true) (hexact : Exact sizer request)
    (nowUtc : ℚ) : ∃ deadline : Option ℚ,
      effectiveDeadline sizer request nowUtc = deadline.map .finite ∧ ∀ D ∈ deadline, 0 ≤ D := by
  have hzero : (0 : PyFloat) = .finite 0 := rfl
  unfold effectiveDeadline
  cases hseconds : request.deadlineSeconds with
  | some x =>
    obtain ⟨q, rfl⟩ := hexact.deadlineSeconds x hseconds
    refine ⟨some q, rfl, fun D hD => ?_⟩
    obtain rfl := Option.some.inj hD
    simp only [SizingRequest.isValid, hseconds, Option.all_some, Bool.and_eq_true] at hvalid
    have hpos : PyFloat.lt 0 (.finite q) = true := by tauto
    rw [hzero, PyFloat.lt_finite] at hpos
    exact hpos.le
  | none =>
    cases hat : request.deadlineAtUtc with
    | none => exact ⟨none, rfl, fun D hD => by cases hD⟩
    | some x =>
      obtain ⟨q, rfl⟩ := hexact.deadlineAtUtc x hat
      refine ⟨some (max 0 (q - nowUtc)), ?_, fun D hD => ?_⟩
      · have hsub :
            PyFloat.sub sizer.round (.finite q) (.finite nowUtc) = .finite (q - nowUtc) := by
          rw [hexact.round]
          simp [PyFloat.sub, PyFloat.neg, PyFloat.add, sub_eq_add_neg]
        simp only [Option.map_some, hsub, hzero, PyFloat.max, PyFloat.lt]
        by_cases hlt : 0 < q - nowUtc
        · simp [hlt, hlt.le]
        · simp [hlt, not_lt.1 hlt]
      · obtain rfl := Option.some.inj hD
        exact le_max_left _ _

/-- What a decision says of the groups of the sorted workers: the wall clock of each that is
considered, the one that is chosen, and whether the deadline can be met. -/
structure Decides (request : SizingRequest) (sorted : List WorkerResourceProfile) (wall : ℕ → ℚ)
    (deadline : Option ℚ) (margin threshold : ℚ) (d : SizingDecision) : Prop where
  length : d.evaluationsByGroupSize.length = maxPossible request sorted
  projected : ∀ i (hi : i < d.evaluationsByGroupSize.length),
    d.evaluationsByGroupSize[i].workerIds = (sorted.take (i + 1)).map (·.workerId) ∧
      d.evaluationsByGroupSize[i].wallClockSeconds = .finite (wall (i + 1))
  chosen : ChosenSize (maxPossible request sorted) wall deadline margin threshold
    d.recommendedWorkerCount
  selected : d.selectedWorkerIds = (sorted.take d.recommendedWorkerCount).map (·.workerId)
  partition : d.selectedWorkerIds ++ d.spareWorkerIds = sorted.map (·.workerId)
  achievable : ∀ D ∈ deadline,
    (d.deadlineAchievable = true ↔ ∃ k, 1 ≤ k ∧ k ≤ maxPossible request sorted ∧ wall k ≤ D)

theorem decides_grouped {deadline : Option ℚ} (hexact : Exact sizer request) {margin threshold : ℚ}
    (hmargin : sizer.safetyMargin = .finite margin) (hnonneg : 0 ≤ margin)
    (hthreshold : request.marginalBenefitThreshold.getD sizer.marginalBenefitThreshold =
      .finite threshold)
    (hdeadline : ∀ D ∈ deadline, 0 ≤ D) (hsorted : sorted ≠ [])
    (hids : (sorted.map (·.workerId)).Nodup) :
    ∃ d wall, grouped sizer request (deadline.map .finite) rejected sorted = some d ∧
      Decides request sorted wall deadline margin threshold d := by
  obtain ⟨evaluations, details, hevaluations, hlength, hp, hworkers⟩ :=
    hexact.exists_projections (deadline.map .finite) (@maxPossible_le request sorted hsorted)
  have hpos := @maxPossible_pos request sorted
  obtain ⟨first, rest, rfl⟩ := List.exists_cons_of_length_pos (by omega : 0 < evaluations.length)
  obtain ⟨hchosen, hrange, hachievable⟩ :=
    @choosePolicy_spec _ sizer request margin threshold deadline
    first rest hexact.round hmargin hnonneg hthreshold hdeadline hp
  have hlt : (choosePolicy sizer request (deadline.map .finite) first rest).1 - 1 <
      (first :: rest).length := by omega
  have hworkers' := hworkers _ hlt
  rw [Nat.sub_add_cancel hrange.1] at hworkers'
  unfold grouped
  simp only [hevaluations, Option.bind_eq_bind, Option.bind_some, List.getElem?_eq_getElem hlt]
  refine ⟨_, wallOf (first :: rest), rfl, ?_⟩
  refine ⟨hlength, fun i hi => ⟨hworkers i hi, hp.wallClock i hi⟩, ?_, hworkers', ?_, ?_⟩
  · rw [← hlength]
    exact hchosen
  · dsimp only
    rw [hworkers', List.map_take, selected_append_spare hids]
  · intro D hD
    rw [← hlength]
    refine hachievable.trans ⟨fun h => h D hD, fun h D' hD' => ?_⟩
    obtain rfl := Option.some.inj (hD.symm.trans hD')
    exact h

/-- With one group there is no choice. -/
theorem chosenSize_one (wall : ℕ → ℚ) (deadline : Option ℚ) (margin threshold : ℚ) :
    ChosenSize 1 wall deadline margin threshold 1 := by
  have hone : ∀ {k : ℕ}, 1 ≤ k → k ≤ 1 → k = 1 := fun h h' => le_antisymm h' h
  have hwithin : ∀ target, (Within 1 wall target).Nonempty → IsLeast (Within 1 wall target) 1 := by
    rintro target ⟨k, hpos, hle, hk⟩
    obtain rfl := hone hpos hle
    exact ⟨⟨hpos, hle, hk⟩, fun j hj => hj.1⟩
  cases deadline with
  | none => exact ⟨⟨le_rfl, le_rfl, fun j hj hj' => by omega⟩, fun k hk => hk.2.1⟩
  | some D =>
    refine ⟨hwithin _, fun _ => hwithin D, fun _ => ⟨⟨le_rfl, le_rfl, fun j hj hj' => ?_⟩,
      fun k hk => hk.1⟩⟩
    rw [hone hj hj']

theorem maxPossible_one (hvalid : request.isValid = true) (hunits : request.totalUnits ≤ 1) :
    maxPossible request sorted = 1 := by
  simp only [SizingRequest.isValid, Bool.and_eq_true, decide_eq_true_eq] at hvalid
  have hone : request.totalUnits = 1 := by omega
  have hdiv : request.totalUnits / request.minUnitsPerWorker ≤ 1 :=
    hone ▸ Int.ediv_le_self _ (by omega)
  unfold maxPossible
  cases request.maxWorkersLimit with
  | none => simp only [Option.elim_none]; omega
  | some limit => simp only [Option.elim_some]; omega

theorem decides_single {deadline : Option ℚ} {best : WorkerResourceProfile}
    {rest : List WorkerResourceProfile} (hvalid : request.isValid = true)
    (hexact : Exact sizer request) (margin threshold : ℚ) (hunits : request.totalUnits ≤ 1) :
    ∃ wall, Decides request (best :: rest) wall deadline margin threshold
      (single sizer request (deadline.map .finite) rejected best rest) := by
  obtain ⟨total, htotal⟩ := isFinite_add hexact (hexact.finite_transferTime best)
    (hexact.finite_computeTime request.totalUnits best)
  have hone := @maxPossible_one request (best :: rest) hvalid hunits
  refine ⟨fun _ => total, hone.symm, fun i hi => ?_, ?_, rfl, rfl, fun D hD => ?_⟩
  · obtain rfl : i = 0 := Nat.lt_one_iff.1 hi
    exact ⟨rfl, htotal⟩
  · rw [hone]
    exact chosenSize_one _ deadline margin threshold
  · obtain rfl := hD
    have hmeets :
      (single sizer request ((some D).map .finite) rejected best rest).deadlineAchievable =
        (PyFloat.finite total).le (.finite D) := by
      rw [← htotal]
      rfl
    rw [hmeets, PyFloat.le_finite, hone]
    exact ⟨fun h => ⟨1, le_rfl, le_rfl, h⟩, fun ⟨_, _, _, h⟩ => h⟩

/-- There is a decision when there is a probe, and it is about the workers that pass its gates. -/
theorem sizeCluster_spec {margin threshold : ℚ} (hvalid : request.isValid = true)
    (hpartitionable : request.partitionable = true) (hexact : Exact sizer request)
    (hmargin : sizer.safetyMargin = .finite margin) (hnonneg : 0 ≤ margin)
    (hthreshold : request.marginalBenefitThreshold.getD sizer.marginalBenefitThreshold =
      .finite threshold)
    (hprobe : buildProbeSpec sizer request ctx.nowUtc = some probe)
    (hids : (profiles.map (·.workerId)).Nodup) :
    ∃ d, sizeCluster sizer text ctx request profiles = some d ∧
      (d.selectedWorkerIds ++ d.spareWorkerIds).Nodup ∧
      (∀ wid, wid ∈ d.selectedWorkerIds ++ d.spareWorkerIds ↔
        ∃ p ∈ profiles, Placement.eligible text ctx probe p = true ∧ p.workerId = wid) ∧
      (sortedEligible sizer text ctx request probe profiles ≠ [] →
        ∃ wall deadline, effectiveDeadline sizer request ctx.nowUtc = deadline.map .finite ∧
          Decides request (sortedEligible sizer text ctx request probe profiles) wall deadline
            margin
            threshold d) := by
  have hperm := @perm_sortedEligible sizer text ctx request probe profiles hids
  have hdistinct :
      ((sortedEligible sizer text ctx request probe profiles).map (·.workerId)).Nodup :=
    (hperm.map _).nodup_iff.2 (hids.sublist (List.filter_sublist.map _))
  have hmem : ∀ wid, wid ∈ (sortedEligible sizer text ctx request probe profiles).map (·.workerId) ↔
      ∃ p ∈ profiles, Placement.eligible text ctx probe p = true ∧ p.workerId = wid := by
    intro wid
    simp only [(hperm.map _).mem_iff, List.mem_map, List.mem_filter, and_assoc]
  obtain ⟨deadline, hdeadline, hpos⟩ := exists_deadline hvalid hexact ctx.nowUtc
  rw [sizeCluster_eq hprobe hpartitionable, hdeadline]
  cases hsorted : sortedEligible sizer text ctx request probe profiles with
  | nil =>
    rw [hsorted] at hmem
    exact ⟨_, rfl, List.nodup_nil, hmem, fun h => absurd rfl h⟩
  | cons best rest =>
    rw [hsorted] at hmem hdistinct
    have hdecides : ∃ d wall, (if request.totalUnits ≤ 1 then
          some (single sizer request (deadline.map .finite) (rejections text ctx probe profiles)
            best rest)
        else grouped sizer request (deadline.map .finite) (rejections text ctx probe profiles)
          (best :: rest)) = some d ∧
        Decides request (best :: rest) wall deadline margin threshold d := by
      split_ifs with hunits
      · obtain ⟨wall, hd⟩ := decides_single hvalid hexact margin threshold hunits
        exact ⟨_, wall, rfl, hd⟩
      · exact decides_grouped hexact hmargin hnonneg hthreshold hpos (List.cons_ne_nil best rest)
          hdistinct
    obtain ⟨d, wall, hd, hdec⟩ := hdecides
    refine ⟨d, hd, ?_, ?_, fun _ => ⟨wall, deadline, rfl, hdec⟩⟩
    · rw [hdec.partition]
      exact hdistinct
    · rw [hdec.partition]
      exact hmem

end Decision

/-- Nothing is known of the workers but their profiles. -/
def plainContext : PlacementContext := { workerTags := ∅, groupWorkers := ∅, nowUtc := 0 }

/-- The two workers of the same speed, with fresh telemetry. -/
def freshWorkers : List WorkerResourceProfile :=
  skewedWorkers.map fun p => { p with timestampUtc := some 0 }

theorem exact_skewedRequest : Exact exactSizer (skewedRequest 1) where
  round := rfl
  bandwidth := ⟨_, rfl⟩
  overhead := ⟨_, rfl⟩
  threshold := ⟨_, rfl⟩
  margin := ⟨_, rfl⟩
  unit := fun x hx => ⟨10, (Option.some.inj hx).symm⟩
  speed := fun wid x hx => by
    have hmem : x ∈ (skewedRequest 1).workerSpeedMultipliers.values := Dict.mem_values.2 ⟨wid, hx⟩
    exact ⟨1, List.mem_singleton.1 hmem⟩
  deadlineSeconds := fun x hx => ⟨39, (Option.some.inj hx).symm⟩
  deadlineAtUtc := fun x hx => by cases hx

end Aidars.Sizing
