import Aidars.Foundations.Binary64
import Aidars.Orchestrator.Queue
import Aidars.Orchestrator.QueueView
import Aidars.Orchestrator.Recovery

/-!
# Waiting workloads are not starved

`clockedStep` runs the orchestrator with a clock that does not go back: a workload is submitted at
the time of its first submission, and a pass of the admission loop starts the ready workloads in the
order that its time, the times of submission and the learned durations give.

In every run a workload is started before those that were submitted at least
`starvationPreventionSeconds` later, and the effective priority of a waiting workload never falls,
unless its priority is too large for a float (`no_starvation`). Both hold for every rounding that
keeps the order of numbers.
-/

namespace Aidars.Orchestrator

variable {round : ℚ → PyFloat} {times : QueueTimes} {cfg : Config} {s s' : State}
  {w v : String} {spec : WorkloadSpec} {now now' : ℚ}

/-! ## The bonus of a deadline -/

/-- The bonus of a deadline that is near. -/
def nearBonus (round : ℚ → PyFloat) (duration slack : PyFloat) : PyFloat :=
  .max 0 (.sub round 100 (.mul round (.div round slack (.max duration 1)) 10))

/-- The bonus of a deadline with a slack. -/
def slackBonus (round : ℚ → PyFloat) (duration : PyFloat) (expired : Bool) (slack : PyFloat) :
    PyFloat :=
  if expired || slack.le 0 then 100
  else if slack.le (.mul round 10 duration) then nearBonus round duration slack
  else 0

/-- The seconds that are left when a workload of a duration is started. -/
def slackAt (round : ℚ → PyFloat) (duration deadline : PyFloat) (now : ℚ) : PyFloat :=
  .sub round (.sub round deadline (.finite now)) duration

theorem deadlinePriorityBonus_eq (times : QueueTimes) (spec : WorkloadSpec) (now : ℚ) :
    deadlinePriorityBonus round times spec now = spec.deadlineAtUtc.elim 0 fun deadline =>
      slackBonus round (predictedDuration times spec).2 (deadline.lt (.finite now))
        (slackAt round (predictedDuration times spec).2 deadline now) := by
  unfold deadlinePriorityBonus
  cases spec.deadlineAtUtc with
  | none => rfl
  | some deadline => rfl

section Bonus

variable {duration slack slack' deadline x y : PyFloat} {expired expired' : Bool}
  (hr : PyFloat.RoundsInOrder round)
include hr

theorem sub_hundred_le (hx : PyFloat.le 0 x) (hxy : x.le y) :
    (PyFloat.sub round 100 y).le (.sub round 100 x) := by
  obtain ⟨p, rfl, hp⟩ | rfl := PyFloat.nonneg_iff.1 hx
  · obtain ⟨q, rfl, hq⟩ | rfl := PyFloat.nonneg_iff.1 (PyFloat.le_trans hx hxy)
    · refine hr.mono _ _ ?_
      have := PyFloat.le_finite.1 hxy
      linarith
    · exact PyFloat.negInf_le.2 (hr.rounds.ne_nan _)
  · obtain rfl := PyFloat.posInf_le.1 hxy
    rfl

/-- The bonus of a part of ten durations is a hundred when the part is zero. -/
theorem bonus_zero : PyFloat.max 0 (.sub round 100 (.mul round 0 10)) = 100 := by
  have hzero : PyFloat.mul round 0 10 = 0 := by
    show round (0 * 10) = 0
    rw [zero_mul]
    exact hr.ofNat 0 (Nat.zero_le _)
  have hhundred : PyFloat.sub round 100 0 = 100 := by
    show round (100 + -0) = 100
    rw [neg_zero, add_zero]
    exact hr.ofNat 100 (by norm_num)
  rw [hzero, hhundred]
  rfl

omit hr in
/-- The least duration that counts is a second. -/
theorem max_one_cases (hd : duration ≠ .nan) :
    (∃ q, 0 < q ∧ duration.max 1 = .finite q) ∨ duration.max 1 = .posInf := by
  have hone : (1 : PyFloat) = .finite 1 := rfl
  unfold PyFloat.max
  split_ifs with h
  · exact .inl ⟨1, one_pos, rfl⟩
  · have hle : PyFloat.le 1 duration := PyFloat.le_of_not_lt hd (by simp [hone]) h
    rcases duration with q | _ | _ | _
    · rw [hone, PyFloat.le_finite] at hle
      exact .inl ⟨q, one_pos.trans_le hle, rfl⟩
    · exact .inr rfl
    · cases hle
    · exact absurd rfl hd

theorem nearBonus_le (hd : duration ≠ .nan) (hx : PyFloat.le 0 x) (hxy : x.le y) :
    (nearBonus round duration y).le (nearBonus round duration x) := by
  have hy := PyFloat.le_trans hx hxy
  unfold nearBonus
  obtain ⟨q, hq, hm⟩ | hm := max_one_cases hd
  · rw [hm]
    have hdiv := hr.rounds.div hx hq
    have hmul := hr.rounds.mul hdiv (show (0 : ℚ) < 10 by norm_num)
    exact PyFloat.max_mono (sub_hundred_le hr hmul
      (hr.mul_mono hdiv (hr.div_mono hx hxy hq) (by norm_num)))
  · -- of infinite durations a finite slack is no part, and an infinite one is `nan`
    have hfinite : ∀ q, PyFloat.div round (.finite q) .posInf = 0 := fun _ => rfl
    rw [hm]
    obtain ⟨p, rfl, -⟩ | rfl := PyFloat.nonneg_iff.1 hx
    · rw [hfinite, bonus_zero hr]
      obtain ⟨q, rfl, -⟩ | rfl := PyFloat.nonneg_iff.1 hy
      · rw [hfinite, bonus_zero hr]
        rfl
      · rfl
    · obtain rfl := PyFloat.posInf_le.1 hxy
      exact PyFloat.le_refl (PyFloat.ne_nan_of_nonneg (PyFloat.nonneg_max _))

theorem nearBonus_le_hundred (hd : duration ≠ .nan) (hx : PyFloat.le 0 x) :
    (nearBonus round duration x).le 100 := by
  have hzero : nearBonus round duration 0 = 100 := by
    have hdiv : PyFloat.div round 0 (duration.max 1) = 0 := by
      obtain ⟨q, hq, hm⟩ | hm := max_one_cases hd
      · rw [hm]
        show (if q = 0 then PyFloat.nan else round (0 / q)) = 0
        rw [if_neg hq.ne', zero_div]
        exact hr.ofNat 0 (Nat.zero_le _)
      · rw [hm]
        rfl
    rw [nearBonus, hdiv, bonus_zero hr]
  exact hzero ▸ nearBonus_le hr hd rfl hx

omit hr in
theorem near_cases (hurgent : ¬ (expired || slack.le 0) = true)
    (hnear : slack.le (.mul round 10 duration)) : duration ≠ .nan ∧ PyFloat.le 0 slack := by
  rw [Bool.or_eq_true, not_or] at hurgent
  obtain ⟨hslack, hmul⟩ := PyFloat.ne_nan_of_le hnear
  refine ⟨?_, PyFloat.le_of_lt ?_⟩
  · rintro rfl
    exact hmul rfl
  · by_contra hlt
    exact hurgent.2 (PyFloat.le_of_not_lt nofun hslack hlt)

theorem slackBonus_le_hundred : (slackBonus round duration expired slack).le 100 := by
  unfold slackBonus
  split_ifs with hurgent hnear
  · rfl
  · obtain ⟨hd, hslack⟩ := near_cases hurgent hnear
    exact nearBonus_le_hundred hr hd hslack
  · rfl

omit hr in
theorem nonneg_slackBonus : PyFloat.le 0 (slackBonus round duration expired slack) := by
  unfold slackBonus
  split_ifs
  · rfl
  · exact PyFloat.nonneg_max _
  · rfl

theorem slackBonus_mono (hexpired : expired = true → expired' = true)
    (hslack : slack.le 0 ∨ slack.le (.mul round 10 duration) → slack'.le slack) :
    (slackBonus round duration expired slack).le (slackBonus round duration expired' slack') := by
  by_cases hurgent' : (expired' || slack'.le 0) = true
  · have hfull : slackBonus round duration expired' slack' = 100 := by
      rw [slackBonus, if_pos hurgent']
    rw [hfull]
    exact slackBonus_le_hundred hr
  · have hurgent : ¬ (expired || slack.le 0) = true := by
      rw [Bool.or_eq_true, not_or] at hurgent' ⊢
      exact ⟨fun h => hurgent'.1 (hexpired h),
        fun h => hurgent'.2 (PyFloat.le_trans (hslack (.inl h)) h)⟩
    by_cases hnear : slack.le (.mul round 10 duration)
    · have hle := hslack (.inr hnear)
      have hnear' := PyFloat.le_trans hle hnear
      rw [slackBonus, slackBonus, if_neg hurgent, if_neg hurgent', if_pos hnear, if_pos hnear']
      obtain ⟨hd, hpos⟩ := near_cases hurgent' hnear'
      exact nearBonus_le hr hd hpos hle
    · rw [slackBonus, if_neg hurgent, if_neg hnear]
      exact nonneg_slackBonus

theorem sub_now_le (hd : deadline ≠ .nan) (h : now ≤ now') :
    (PyFloat.sub round deadline (.finite now')).le (.sub round deadline (.finite now)) := by
  rcases deadline with q | _ | _ | _
  · exact hr.mono _ _ (by linarith)
  · rfl
  · rfl
  · exact absurd rfl hd

/-- A slack that counts falls with time. -/
theorem slackAt_mono (h : now ≤ now') (hcounts : (slackAt round duration deadline now).le 0 ∨
    (slackAt round duration deadline now).le (.mul round 10 duration)) :
    (slackAt round duration deadline now').le (slackAt round duration deadline now) := by
  have hne : slackAt round duration deadline now ≠ .nan :=
    hcounts.elim (fun h => (PyFloat.ne_nan_of_le h).1) fun h => (PyFloat.ne_nan_of_le h).1
  have hd : deadline ≠ .nan := by
    rintro rfl
    exact hne rfl
  have hle := sub_now_le hr hd h
  unfold slackAt at *
  generalize PyFloat.sub round deadline (.finite now) = x at *
  generalize PyFloat.sub round deadline (.finite now') = x' at *
  refine hr.add_right hle ?_ hne
  have hnum := hr.rounds.ne_nan
  obtain ⟨hx', hx⟩ := PyFloat.ne_nan_of_le hle
  rcases duration with q | _ | _ | _
  · cases x' <;> simp_all [PyFloat.neg, PyFloat.add]
  · cases x' <;> simp_all [PyFloat.sub, PyFloat.neg, PyFloat.add]
  · -- a duration below every number leaves no slack that counts
    have hmul : PyFloat.mul round 10 .negInf = .negInf := rfl
    rw [hmul] at hcounts
    exfalso
    cases x <;> simp_all [PyFloat.sub, PyFloat.neg, PyFloat.add]
  · cases x <;> simp_all [PyFloat.sub, PyFloat.neg, PyFloat.add]

end Bonus

/-! ## Effective priorities -/

/-- The points for the age of a workload. -/
def agePoints (round : ℚ → PyFloat) (submittedAt now : ℚ) : PyFloat :=
  .min 100 (.mul round (.div round (.max 0 (.sub round (.finite now) (.finite submittedAt)))
    (.finite 60)) (.finite 10))

/-- The points for the priority of a workload. -/
def priorityPoints (round : ℚ → PyFloat) (priority : ℕ) : PyFloat :=
  .min 100 (.ofInt round priority)

theorem points_eq (times : QueueTimes) (w : String) (spec : WorkloadSpec) (now : ℚ) :
    points round times w spec (.ofInt round spec.priority) now =
      .add round (.add round (priorityPoints round spec.priority)
        (agePoints round (times.submittedAt w) now)) (deadlinePriorityBonus round times spec now) :=
  rfl

/-- The effective priority of a workload is between `0` and `300`, and does not fall with time. -/
def PriorityRises (round : ℚ → PyFloat) (times : QueueTimes) (w : String) (spec : WorkloadSpec) :
    Prop :=
  ∀ now now', now ≤ now' → ∃ x y, effectivePriority round times w spec now = some x ∧
    effectivePriority round times w spec now' = some y ∧ x.le y ∧ PyFloat.le 0 x ∧ x.le 300

section Priorities

variable {submittedAt : ℚ} (hr : PyFloat.RoundsInOrder round)
include hr

theorem nonneg_agePoints : PyFloat.le 0 (agePoints round submittedAt now) :=
  PyFloat.nonneg_min rfl (hr.rounds.mul (hr.rounds.div (PyFloat.nonneg_max _) (by norm_num))
    (by norm_num))

theorem agePoints_mono (h : now ≤ now') :
    (agePoints round submittedAt now).le (agePoints round submittedAt now') := by
  have hage : (PyFloat.sub round (.finite now) (.finite submittedAt)).le
      (.sub round (.finite now') (.finite submittedAt)) := hr.mono _ _ (by linarith)
  have hnonneg := PyFloat.nonneg_max (.sub round (.finite now) (.finite submittedAt))
  refine PyFloat.min_mono nofun (hr.mul_mono (hr.rounds.div hnonneg (by norm_num)) ?_ (by norm_num))
  exact hr.div_mono hnonneg (PyFloat.max_mono hage) (by norm_num)

theorem nonneg_priorityPoints (priority : ℕ) : PyFloat.le 0 (priorityPoints round priority) :=
  PyFloat.nonneg_min rfl (hr.rounds.nonneg _ (by simp))

theorem nonneg_points (priority : ℕ) : PyFloat.le 0 (.add round (priorityPoints round priority)
    (agePoints round submittedAt now)) :=
  hr.rounds.add (nonneg_priorityPoints hr priority) (nonneg_agePoints hr)

theorem deadlinePriorityBonus_le : (deadlinePriorityBonus round times spec now).le 100 := by
  rw [deadlinePriorityBonus_eq]
  cases spec.deadlineAtUtc with
  | none => rfl
  | some deadline => exact slackBonus_le_hundred hr

theorem deadlinePriorityBonus_mono (h : now ≤ now') :
    (deadlinePriorityBonus round times spec now).le
      (deadlinePriorityBonus round times spec now') := by
  rw [deadlinePriorityBonus_eq, deadlinePriorityBonus_eq]
  cases spec.deadlineAtUtc with
  | none => rfl
  | some deadline =>
    refine slackBonus_mono hr (fun hexpired => ?_) (slackAt_mono hr h)
    cases deadline with
    | finite d =>
      rw [PyFloat.lt_finite] at hexpired ⊢
      exact hexpired.trans_le h
    | negInf => rfl
    | posInf | nan => cases hexpired

theorem points_mono (h : now ≤ now') :
    (points round times w spec (.ofInt round spec.priority) now).le
      (points round times w spec (.ofInt round spec.priority) now') := by
  rw [points_eq, points_eq]
  have hpriority := nonneg_priorityPoints hr spec.priority
  refine hr.add_mono (nonneg_points hr _) nonneg_deadlinePriorityBonus ?_
    (deadlinePriorityBonus_mono hr h)
  exact hr.add_mono hpriority (nonneg_agePoints hr)
    (PyFloat.le_refl (PyFloat.ne_nan_of_nonneg hpriority)) (agePoints_mono hr h)

/-- There are at most a hundred points for each part. -/
theorem points_le : PyFloat.le 0 (points round times w spec (.ofInt round spec.priority) now) ∧
    (points round times w spec (.ofInt round spec.priority) now).le 300 := by
  rw [points_eq]
  have hpriority := nonneg_priorityPoints hr spec.priority
  have hage : PyFloat.le 0 (agePoints round (times.submittedAt w) now) := nonneg_agePoints hr
  have hpoints := hr.rounds.add hpriority hage
  have htwo := hr.add_le (m := 100) (n := 100) hpriority hage (PyFloat.min_le _ nofun)
    (PyFloat.min_le _ nofun) (by norm_num)
  exact ⟨hr.rounds.add hpoints nonneg_deadlinePriorityBonus, hr.add_le (m := 200) (n := 100) hpoints
    nonneg_deadlinePriorityBonus htwo (deadlinePriorityBonus_le hr) (by norm_num)⟩

/-- **The effective priority rises exactly when the priority can be made a float.** -/
theorem priorityRises_iff : PriorityRises round times w spec ↔
    (PyFloat.ofInt? round spec.priority).isSome := by
  constructor
  · intro h
    obtain ⟨x, -, hx, -⟩ := h 0 0 le_rfl
    obtain ⟨p, hp, -⟩ := Option.map_eq_some_iff.1 hx
    rw [hp, Option.isSome_some]
  · intro h now now' hle
    obtain ⟨p, hp⟩ := Option.isSome_iff_exists.1 h
    obtain rfl := PyFloat.eq_of_ofInt? hp
    exact ⟨_, _, Option.map_eq_some_iff.2 ⟨_, hp, rfl⟩, Option.map_eq_some_iff.2 ⟨_, hp, rfl⟩,
      points_mono hr hle, points_le hr⟩

end Priorities

/-! ## The order of a pass -/

/-- The workload is queued, waits, is not being processed, and its dependencies are completed. -/
structure Admissible (s : State) (w : String) : Prop where
  queued : w ∈ s.queued
  submitted : s.stateOf w = some .submitted
  notProcessing : w ∉ s.processing
  ready : ∀ spec, s.specOf w = some spec → ∀ dep ∈ spec.dependsOn, s.stateOf dep = some .completed

/-- A pass whose sort raises: the dependencies are checked, and nothing is started. -/
def raisedPass (s : State) : State :=
  let s := (s.pendingIds.foldl State.checkReady (s, [])).1
  { s with queued := PySet.ofList (s.queued.toList.filter fun w => s.stateOf w = some .submitted) }

/-- The workloads that a pass starts, in this order. -/
def popped (cfg : Config) (s : State) (order : List String) : List String :=
  order.take (max 1 cfg.maxDispatchTasks - s.processing.toList.length)

theorem dependencyState_of_completed {deps : List String}
    (h : ∀ dep ∈ deps, s.stateOf dep = some .completed) :
    s.dependencyState w deps = (s, .ready) := by
  induction deps with
  | nil => rfl
  | cons dep deps ih =>
    obtain ⟨hdep, hdeps⟩ := List.forall_mem_cons.1 h
    unfold State.dependencyState
    rw [hdep]
    exact ih hdeps

/-- A turn of the dependency check changes the state of the workload it is about only. -/
theorem stateOf_checkReady {acc : State × List String} (h : v ≠ w) :
    (State.checkReady acc w).1.stateOf v = acc.1.stateOf v := by
  unfold State.checkReady
  split
  · rename_i r _
    have hcases := dependencyState_cases acc.1 w r.spec.dependsOn
    have hkept : (acc.1.dependencyState w r.spec.dependsOn).1.stateOf v = acc.1.stateOf v := by
      rcases hcases with heq | ⟨-, m, heq⟩
      · rw [heq]
      · rw [heq, stateOf_eq, stateOf_eq, outcomeOf_updateState, if_neg h]
    split
    · rename_i hs
      rwa [hs] at hkept
    · rename_i hs
      rwa [hs] at hkept
  · rfl

theorem mem_foldl_checkReady {l : List String} {acc : State × List String} (hw : w ∈ l)
    (hspec : acc.1.specOf w = some spec)
    (hdeps : ∀ dep ∈ spec.dependsOn, acc.1.stateOf dep = some .completed ∧ dep ∉ l) :
    w ∈ (l.foldl State.checkReady acc).2 := by
  induction l generalizing acc with
  | nil => cases hw
  | cons v l ih =>
    obtain ⟨l', -, hl'⟩ := foldl_checkReady_sublist l (State.checkReady acc v)
    rw [List.foldl_cons]
    rcases List.mem_cons.1 hw with rfl | hw
    · obtain ⟨r, hr, rfl⟩ := Option.map_eq_some_iff.1 hspec
      have hready : State.checkReady acc w = (acc.1, acc.2 ++ [w]) := by
        unfold State.checkReady
        rw [hr]
        dsimp only
        rw [dependencyState_of_completed fun dep hdep => (hdeps dep hdep).1]
      rw [hl', hready]
      exact List.mem_append_left _ (List.mem_append_right _ (List.mem_singleton_self w))
    · refine ih hw ?_ fun dep hdep => ?_
      · exact ((keepsRecords_checkReady (o := none) acc [v]).specs w).trans hspec
      · obtain ⟨hcompleted, hnot⟩ := hdeps dep hdep
        rw [List.mem_cons, not_or] at hnot
        exact ⟨(stateOf_checkReady hnot.1).trans hcompleted, hnot.2⟩

theorem Admissible.mem_readyIds (h : Admissible s w) : w ∈ readyIds s := by
  obtain ⟨spec, hspec⟩ := Option.isSome_iff_exists.1 (specOf_isSome_of_stateOf h.submitted)
  have hmem : w ∈ s.pendingIds := by
    refine List.mem_filter.2 ⟨h.queued, ?_⟩
    rw [Bool.and_eq_true, decide_eq_true_iff, decide_eq_true_iff]
    exact ⟨h.submitted, h.notProcessing⟩
  refine mem_foldl_checkReady hmem hspec fun dep hdep =>
    ⟨h.ready spec hspec dep hdep, fun hin => ?_⟩
  obtain ⟨-, hpending⟩ := List.mem_filter.1 hin
  rw [h.ready spec hspec dep hdep] at hpending
  simp at hpending

/-- A workload that was submitted so long before another has waited too long when the other is
there. -/
theorem starvationOverride_of_later (hr : PyFloat.RoundsInOrder round)
    (hlater : times.submittedAt w + 600 ≤ times.submittedAt v) (hv : times.submittedAt v ≤ now) :
    starvationOverride round times w now = true := by
  have hround : round 600 = starvationPreventionSeconds := hr.ofNat 600 (by norm_num)
  unfold starvationOverride
  rw [← hround]
  exact hr.mono _ _ (by linarith)

/-- It goes before the other. -/
theorem not_keyLe_of_later (hr : PyFloat.RoundsInOrder round)
    (hlater : times.submittedAt w + 600 ≤ times.submittedAt v) (hv : times.submittedAt v ≤ now) :
    ¬ keyLe (admissionKey round times s now) v w := by
  have hbefore : times.submittedAt w < times.submittedAt v := by linarith
  have h01 : (0 : PyFloat) ≠ 1 := by decide
  unfold keyLe admissionKey
  rw [if_pos (starvationOverride_of_later hr hlater hv)]
  split_ifs
  · simp [Tuple.lt, KeyItem.lt, hbefore, hbefore.ne]
  · simp [Tuple.lt, KeyItem.lt, h01]
    rfl

theorem mem_before_of_pairwise {α : Type*} {r : α → α → Prop} {before after : List α} {a b : α}
    (hl : (before ++ a :: after).Pairwise r) (hb : b ∈ before ++ a :: after) (hne : b ≠ a)
    (h : ¬ r a b) : b ∈ before := by
  obtain ⟨-, hafter, -⟩ := List.pairwise_append.1 hl
  rcases List.mem_append.1 hb with hb | hb
  · exact hb
  · rcases List.mem_cons.1 hb with rfl | hb
    · exact absurd rfl hne
    · exact absurd ((List.pairwise_cons.1 hafter).1 b hb) h

theorem sorted_of_admissionOrder {order : List String}
    (h : admissionOrder round times s now = some order) :
    sortBy (admissionKey round times s now) (readyIds s) = order := by
  unfold admissionOrder at h
  split_ifs at h
  exact Option.some.inj h

/-- **A pass starts an admissible workload before those that were submitted so much later.** -/
theorem admissionOrder_before (hr : PyFloat.RoundsInOrder round) {order before after : List String}
    (horder : admissionOrder round times s now = some order)
    (hpopped : popped cfg s order = before ++ v :: after)
    (hw : Admissible s w) (hlater : times.submittedAt w + 600 ≤ times.submittedAt v)
    (hv : times.submittedAt v ≤ now) : w ∈ before := by
  obtain rfl := sorted_of_admissionOrder horder
  have hsorted : (sortBy (admissionKey round times s now) (readyIds s)).Pairwise
      (keyLe (admissionKey round times s now)) :=
    pairwise_sortBy (separates_admissionKey hr.rounds _).comparable
  have hmem : w ∈ sortBy (admissionKey round times s now) (readyIds s) :=
    (List.mem_insertionSort _).2 hw.mem_readyIds
  have hsplit : sortBy (admissionKey round times s now) (readyIds s) = before ++ v :: (after ++
      (sortBy (admissionKey round times s now) (readyIds s)).drop
        (max 1 cfg.maxDispatchTasks - s.processing.toList.length)) := by
    rw [← List.cons_append, ← List.append_assoc, ← hpopped]
    exact (List.take_append_drop _ _).symm
  rw [hsplit] at hsorted hmem
  refine mem_before_of_pairwise hsorted hmem ?_ (not_keyLe_of_later hr hlater hv)
  rintro rfl
  linarith

/-! ## Runs with a clock -/

/-- The orchestrator with the time and the times of submission. -/
structure Clocked where
  state : State := {}
  clock : ℚ
  submittedAt : Dict String ℚ := ∅

/-- A step at a time, with the durations learned until then. -/
structure ClockedAction where
  action : Action
  now : ℚ
  durationEma : String → Option PyFloat := fun _ => none

namespace Clocked

/-- What the order of the queue is computed from. -/
def queueTimes (c : Clocked) (durationEma : String → Option PyFloat) : QueueTimes where
  submittedAt w := (c.submittedAt.get? w).getD 0
  durationEma

/-- A record has the time at which it is made. -/
def noteSubmission (c : Clocked) (a : ClockedAction) : Dict String ℚ :=
  match a.action with
  | .submitWorkload spec =>
    if (c.state.specOf spec.workloadId).isSome then c.submittedAt
    else c.submittedAt.set spec.workloadId a.now
  | _ => c.submittedAt

/-- The state after a step. The admission loop goes by its order. -/
def moved (cfg : Config) (round : ℚ → PyFloat) (c : Clocked) (a : ClockedAction) : Option State :=
  match a.action with
  | .admissionPass order =>
    match admissionOrder round (c.queueTimes a.durationEma) c.state a.now with
    | some sorted => if order = sorted then step cfg c.state a.action else none
    | none => some (raisedPass c.state)
  | _ => step cfg c.state a.action

end Clocked

/-- A step of the orchestrator, not before the one before it. -/
def clockedStep (cfg : Config) (round : ℚ → PyFloat) (c : Clocked) (a : ClockedAction) :
    Option Clocked :=
  if c.clock ≤ a.now then
    (c.moved cfg round a).map fun s =>
      { state := s, clock := a.now, submittedAt := c.noteSubmission a }
  else none

/-- Every workload was submitted at a time that has passed. -/
structure ClockedInv (c : Clocked) : Prop where
  plain : DrainsPlain c.state
  submitted : ∀ w, (c.state.specOf w).isSome = true →
    ∃ t, c.submittedAt.get? w = some t ∧ t ≤ c.clock

theorem clockedStep_eq_some {c c' : Clocked} {a : ClockedAction}
    (h : clockedStep cfg round c a = some c') : c.clock ≤ a.now ∧
      (step cfg c.state a.action = some c'.state ∨ c'.state = raisedPass c.state) ∧
      c'.clock = a.now ∧ c'.submittedAt = c.noteSubmission a := by
  unfold clockedStep at h
  split_ifs at h with hclock
  obtain ⟨s, hs, rfl⟩ := Option.map_eq_some_iff.1 h
  refine ⟨hclock, ?_, rfl, rfl⟩
  unfold Clocked.moved at hs
  split at hs
  · rename_i ha
    split at hs
    · split_ifs at hs
      exact .inl hs
    · exact .inr (Option.some.inj hs).symm
  · exact .inl hs

/-- A pass that raises keeps the specifications and the processes. -/
theorem kept_raisedPass (s : State) :
    (raisedPass s).specOf w = s.specOf w ∧ (raisedPass s).runs = s.runs := by
  have hspecs := (keepsRecords_checkReady (o := none) (s, []) s.pendingIds).specs w
  obtain ⟨ws, hws⟩ := foldl_checkReady_writes s.pendingIds (s, [])
  refine ⟨hspecs, ?_⟩
  show (s.pendingIds.foldl State.checkReady (s, [])).1.runs = s.runs
  rw [hws]

/-- Only a submission registers a workload. -/
theorem registered_step {a : Action} (hplain : DrainsPlain s) (h : step cfg s a = some s')
    (hnew : (s'.specOf w).isSome = true) :
    (s.specOf w).isSome = true ∨ ∃ spec, a = .submitWorkload spec ∧ w = spec.workloadId := by
  by_cases hrestart : a.isRestart = true
  · obtain ⟨t, rfl, rfl⟩ := restart_of_step hrestart h
    obtain ⟨spec, hspec⟩ := Option.isSome_iff_exists.1 hnew
    obtain ⟨r, -, hr, -, -⟩ := specOf_restart hspec
    rw [State.specOf, hr]
    exact .inl rfl
  · cases step_specOf hplain (by simpa using hrestart) h w with
    | same hspec => exact .inl (hspec ▸ hnew)
    | submitted spec ha hw => exact .inr ⟨spec, ha, hw⟩
    | checkpoint u t f d r hash ha hpc hv hc hhash hattempts hreturned hspec =>
      rw [hspec, Option.isSome_map] at hnew
      exact .inl hnew

theorem clockedInv_step {c c' : Clocked} {a : ClockedAction} (hc : ClockedInv c)
    (h : clockedStep cfg round c a = some c') : ClockedInv c' := by
  obtain ⟨hclock, hmoved, hnow, htimes⟩ := clockedStep_eq_some h
  have hregistered : ∀ w, (c'.state.specOf w).isSome = true → (c.state.specOf w).isSome = true ∨
      ∃ spec, a.action = .submitWorkload spec ∧ w = spec.workloadId := by
    intro w hw
    rcases hmoved with hstep | hraised
    · exact registered_step hc.plain hstep hw
    · rw [hraised, (kept_raisedPass c.state).1] at hw
      exact .inl hw
  refine ⟨?_, fun w hw => ?_⟩
  · rcases hmoved with hstep | hraised
    · exact step_drainsPlain hc.plain hstep
    · intro w f d r t hpc
      rw [hraised, (kept_raisedPass (w := w) c.state).2] at hpc
      exact hc.plain w f d r t hpc
  have hkept : (c.state.specOf w).isSome = true → ∃ t, c.submittedAt.get? w = some t ∧
      t ≤ c'.clock := by
    intro hw
    obtain ⟨t, ht, hle⟩ := hc.submitted w hw
    exact ⟨t, ht, hnow ▸ hle.trans hclock⟩
  rw [htimes]
  unfold Clocked.noteSubmission
  split
  · rename_i spec ha
    split_ifs with hold
    · refine hkept ((hregistered w hw).elim id ?_)
      rintro ⟨spec', ha', rfl⟩
      rw [ha] at ha'
      obtain rfl := Action.submitWorkload.inj ha'
      exact hold
    · rw [Dict.get?_set]
      split_ifs with hid
      · exact ⟨a.now, rfl, hnow.ge⟩
      · refine hkept ((hregistered w hw).elim id ?_)
        rintro ⟨spec', ha', rfl⟩
        rw [ha] at ha'
        obtain rfl := Action.submitWorkload.inj ha'
        exact absurd rfl hid
  · rename_i hother
    refine hkept ((hregistered w hw).elim id ?_)
    rintro ⟨spec, ha, -⟩
    exact absurd ha (hother spec)

theorem clockedInv_run {start : ℚ} {as : List ClockedAction} {c : Clocked}
    (h : runFrom (clockedStep cfg round) { clock := start } as = some c) : ClockedInv c := by
  refine runFrom_invariant (fun _ _ _ hc => clockedInv_step hc) ⟨?_, ?_⟩ h
  · intro w f d r t hpc
    cases hpc
  · intro w hw
    cases hw

/-- What a pass starts waited before the pass. -/
theorem registered_of_popped {order before after : List String}
    (horder : admissionOrder round times s now = some order)
    (h : popped cfg s order = before ++ v :: after) : (s.specOf v).isSome = true := by
  obtain rfl := sorted_of_admissionOrder horder
  have hmem : v ∈ popped cfg s (sortBy (admissionKey round times s now) (readyIds s)) := by
    rw [h]
    exact List.mem_append_right _ List.mem_cons_self
  obtain ⟨r, hr, -⟩ := waiting_of_ready ((List.mem_insertionSort _).1 (List.mem_of_mem_take hmem))
  rw [State.specOf, hr]
  rfl

/-- **Waiting workloads are not starved by later ones.** In every run, a pass that starts a workload
starts before it the admissible workloads that were submitted ten minutes or more before it; and
the effective priority of a workload rises exactly when its priority can be made a float. -/
theorem no_starvation (hr : PyFloat.RoundsInOrder round) (cfg : Config) :
    (∀ start as c now durationEma order, runFrom (clockedStep cfg round) { clock := start } as =
        some c → c.clock ≤ now →
      admissionOrder round (c.queueTimes durationEma) c.state now = some order →
      ∀ before v after, popped cfg c.state order = before ++ v :: after →
        ∀ w, Admissible c.state w → ∀ tw tv, c.submittedAt.get? w = some tw →
          c.submittedAt.get? v = some tv → tw + 600 ≤ tv → w ∈ before) ∧
      ∀ times w spec, PriorityRises round times w spec ↔
        (PyFloat.ofInt? round spec.priority).isSome := by
  refine ⟨fun start as c now durationEma order hrun hclock horder before v after hpopped w hw tw tv
    htw htv hlater => ?_, fun times w spec => priorityRises_iff hr⟩
  obtain ⟨t, ht, hle⟩ := (clockedInv_run hrun).submitted v (registered_of_popped horder hpopped)
  obtain rfl := Option.some.inj (ht.symm.trans htv)
  have hwtime : (c.queueTimes durationEma).submittedAt w = tw := by
    show (c.submittedAt.get? w).getD 0 = tw
    rw [htw, Option.getD_some]
  have hvtime : (c.queueTimes durationEma).submittedAt v = t := by
    show (c.submittedAt.get? v).getD 0 = t
    rw [htv, Option.getD_some]
  refine admissionOrder_before hr horder hpopped hw ?_ ?_
  · rw [hwtime, hvtime]
    exact hlater
  · rw [hvtime]
    exact hle.trans hclock

/-- Two submissions ten minutes apart, the later one of the higher priority. -/
def starvationSample : List ClockedAction :=
  [{ action := .submitWorkload { workloadId := "z", taskType := "compute", priority := 10 }
     now := 0 },
   { action := .submitWorkload { workloadId := "a", taskType := "compute", priority := 90 }
     now := 600 }]

/-- The earlier of them is started first. -/
theorem no_starvation_two : (∃ c, runFrom (clockedStep (sampleConfig 1) .finite) { clock := 0 }
      starvationSample = some c ∧ ∃ before after,
        popped (sampleConfig 1) c.state ["z", "a"] = before ++ "a" :: after ∧ "z" ∈ before) ∧
    PriorityRises .finite waitingTimes "z" { workloadId := "z", taskType := "compute" } := by
  have hclaim := no_starvation PyFloat.roundsInOrder_finite (sampleConfig 1)
  refine ⟨?_, (hclaim.2 waitingTimes "z" _).2 rfl⟩
  have hrun : (runFrom (clockedStep (sampleConfig 1) .finite) { clock := 0 } starvationSample).map
      (fun c => (decide ("z" ∈ c.state.queued ∧ c.state.stateOf "z" = some .submitted ∧
            "z" ∉ c.state.processing), (c.state.specOf "z").map (·.dependsOn),
          decide (c.submittedAt.get? "z" = some 0 ∧ c.submittedAt.get? "a" = some 600 ∧
            popped (sampleConfig 1) c.state ["z", "a"] = ["z", "a"] ∧ c.clock ≤ 600 ∧
            admissionOrder .finite (c.queueTimes fun _ => none) c.state 600 = some ["z", "a"]))) =
      some (true, some [], true) := by
    decide +kernel
  obtain ⟨c, hc, hv⟩ := Option.map_eq_some_iff.1 hrun
  simp only [Prod.mk.injEq, decide_eq_true_iff] at hv
  obtain ⟨⟨hqueued, hstate, hnot⟩, hspec, hz, ha, hpopped, hclock, horder⟩ := hv
  obtain ⟨spec, hspec, hdeps⟩ := Option.map_eq_some_iff.1 hspec
  have hready : Admissible c.state "z" := by
    refine ⟨hqueued, hstate, hnot, fun spec' hspec' dep hdep => ?_⟩
    obtain rfl := Option.some.inj (hspec.symm.trans hspec')
    rw [hdeps] at hdep
    cases hdep
  exact ⟨c, hc, ["z"], [], hpopped, hclaim.1 0 starvationSample c 600 _ _ hc hclock horder ["z"] "a"
    [] hpopped "z" hready 0 600 hz ha (by norm_num)⟩

/-- With a priority of `2 ^ 1024` there is no effective priority. -/
theorem huge_priority_raises : ¬ ∀ (times : QueueTimes) (w : String) (spec : WorkloadSpec),
    PriorityRises binary64 times w spec := by
  intro hclaim
  have hrises := hclaim waitingTimes "w"
    { workloadId := "w", taskType := "compute", priority := 2 ^ 1024 }
  have hconverts := (priorityRises_iff roundsInOrder_binary64).1 hrises
  revert hconverts
  decide +kernel

end Aidars.Orchestrator
