import Aidars.Foundations.Sorting
import Aidars.Orchestrator.Transitions

/-!
# The queue view

`queue_snapshot` shows the workloads that wait for admission in the order of their urgency, and the
admission loop starts them in the order of theirs. Both put workloads that have waited too long
first, by their time of submission, and the others by their effective priority. At equal priority
the view goes by the time of submission, and the admission loop by the identifiers.

A priority that is too large for a float makes both of them raise. `queueSnapshot_order_iff` says
when the view shows the order of the admission loop.
-/

namespace Aidars.Orchestrator

/-- What the order of the queue is computed from: the times of submission, and the durations learned
for the types of tasks, if there are any. -/
structure QueueTimes where
  submittedAt : String → ℚ
  durationEma : String → Option PyFloat

/-- Seconds after which a waiting workload goes first. -/
def starvationPreventionSeconds : PyFloat := 600

variable (round : ℚ → PyFloat) (times : QueueTimes)

/-! ## Urgency -/

/-- The learned duration, and the duration to go by. -/
def predictedDuration (spec : WorkloadSpec) : Option PyFloat × PyFloat :=
  match times.durationEma spec.taskType with
  | some value =>
    if PyFloat.lt 0 value then (some value, value) else (none, spec.estimatedDurationSeconds)
  | none => (none, spec.estimatedDurationSeconds)

/-- The bonus of a workload near its deadline. -/
def deadlinePriorityBonus (spec : WorkloadSpec) (now : ℚ) : PyFloat :=
  match spec.deadlineAtUtc with
  | none => 0
  | some deadline =>
    let duration := (predictedDuration times spec).2
    let slack := .sub round (.sub round deadline (.finite now)) duration
    if deadline.lt (.finite now) || slack.le 0 then 100
    else if slack.le (.mul round 10 duration) then
      .max 0 (.sub round 100 (.mul round (.div round slack (.max duration 1)) 10))
    else 0

/-- The points of a workload for a priority, its age and its deadline. -/
def points (w : String) (spec : WorkloadSpec) (priority : PyFloat) (now : ℚ) : PyFloat :=
  let age := PyFloat.max 0 (.sub round (.finite now) (.finite (times.submittedAt w)))
  let ageMinutes := PyFloat.div round age (.finite 60)
  let normalizedPriority := PyFloat.min 100 priority
  .add round (.add round normalizedPriority (.min 100 (.mul round ageMinutes (.finite 10))))
    (deadlinePriorityBonus round times spec now)

/-- The priority of a workload with its age and its deadline; the priority has to be a float. -/
def effectivePriority (w : String) (spec : WorkloadSpec) (now : ℚ) : Option PyFloat :=
  (PyFloat.ofInt? round spec.priority).map fun priority => points round times w spec priority now

/-- The workload has waited too long. -/
def starvationOverride (w : String) (now : ℚ) : Bool :=
  starvationPreventionSeconds.le (.sub round (.finite now) (.finite (times.submittedAt w)))

/-! ## The view -/

/-- How close a deadline is. -/
def deadlineState (spec : WorkloadSpec) (now : ℚ) : String :=
  match spec.deadlineAtUtc with
  | none => "none"
  | some deadline =>
    if deadline.lt (.finite now) then "expired"
    else if (PyFloat.sub round deadline (.finite now)).le (predictedDuration times spec).2 then
      "approaching"
    else "future"

/-- A row of the view. -/
structure QueueRow where
  workloadId : String
  dispatching : Bool
  priority : ℕ
  normalizedPriority : ℕ
  effectivePriority : PyFloat
  deadlinePriorityBonus : PyFloat
  submittedAt : ℚ
  deadlineAtUtc : Option PyFloat
  deadlineState : String
  predictedDurationSeconds : Option PyFloat
  durationEstimateSource : String
  starvationOverride : Bool
  queued : Bool
  queuePosition : Option ℕ := none
  deriving DecidableEq

/-- A workload that waits or is being processed is shown. -/
def shown (s : State) (w : String) (r : WorkloadRecord) : Bool :=
  r.state = .submitted || w ∈ s.processing

/-- The row of a workload that is shown. -/
def queueRow (s : State) (now : ℚ) (w : String) (r : WorkloadRecord) : Option QueueRow :=
  let isDispatching : Bool := w ∈ s.processing
  if !shown s w r then none
  else
    let predicted := (predictedDuration times r.spec).1
    some
      { workloadId := w
        dispatching := isDispatching
        priority := r.spec.priority
        normalizedPriority := min 100 r.spec.priority
        effectivePriority := (effectivePriority round times w r.spec now).getD 0
        deadlinePriorityBonus := deadlinePriorityBonus round times r.spec now
        submittedAt := times.submittedAt w
        deadlineAtUtc := r.spec.deadlineAtUtc
        deadlineState := deadlineState round times r.spec now
        predictedDurationSeconds := predicted
        durationEstimateSource :=
          if predicted.isSome then "m7_history" else "workload_estimate_fallback"
        starvationOverride := starvationOverride round times w now
        queued := w ∈ s.queued }

/-- The key that rows are sorted by. -/
def QueueRow.sortKey (row : QueueRow) : Tuple :=
  if row.starvationOverride then
    [.num 0, .num (.finite row.submittedAt), .str row.workloadId]
  else
    [.num 1, .num row.effectivePriority.neg, .num (.finite row.submittedAt), .str row.workloadId]

/-- Number the pending rows. -/
def numberRows : ℕ → List QueueRow → List QueueRow
  | _, [] => []
  | n, row :: rows =>
    if row.dispatching then row :: numberRows n rows
    else { row with queuePosition := some (n + 1) } :: numberRows (n + 1) rows

/-- The view of the queue, or of one workload in it. It raises when a row cannot be made. -/
def queueSnapshot (s : State) (now : ℚ) (workloadId : Option String) : Option (List QueueRow) :=
  if s.workloads.entries.all fun e =>
      !shown s e.1 e.2 || (effectivePriority round times e.1 e.2.spec now).isSome then
    let rows := s.workloads.entries.filterMap fun e => queueRow round times s now e.1 e.2
    some ((numberRows 0 (sortBy QueueRow.sortKey rows)).filter fun row =>
      workloadId.all (row.workloadId = ·))
  else none

/-! ## The admission loop -/

/-- The effective priority of a workload of the registry. -/
def priorityOf (s : State) (now : ℚ) (w : String) : PyFloat :=
  ((s.workloads.get? w).bind fun r => effectivePriority round times w r.spec now).getD 0

/-- The key that ready workloads are sorted by. -/
def admissionKey (s : State) (now : ℚ) (w : String) : Tuple :=
  if starvationOverride round times w now then
    [.num 0, .num (.finite (times.submittedAt w)), .str w]
  else
    [.num 1, .num (priorityOf round times s now w).neg, .str w]

/-- The workloads that wait and whose dependencies are ready. -/
def readyIds (s : State) : List String := (s.pendingIds.foldl State.checkReady (s, [])).2

/-- The ready workloads in the order in which the admission loop starts them. The sort raises when a
key cannot be made. -/
def admissionOrder (s : State) (now : ℚ) : Option (List String) :=
  if (readyIds s).all fun w => starvationOverride round times w now ||
      (s.workloads.get? w).all fun r => (effectivePriority round times w r.spec now).isSome then
    some (sortBy (admissionKey round times s now) (readyIds s))
  else none

/-! ## The two orders -/

/-- The waiting workloads in the order of the view. -/
def pendingOrder (s : State) (now : ℚ) : Option (List String) :=
  (queueSnapshot round times s now none).map fun rows =>
    (rows.filter (!·.dispatching)).map (·.workloadId)

/-- The view has the ready workloads in the order of the admission loop. -/
def ShowsDispatchOrder (s : State) (now : ℚ) : Prop :=
  (pendingOrder round times s now).isSome ∧
    (pendingOrder round times s now).map (·.filter (· ∈ readyIds s)) =
      admissionOrder round times s now

/-- The priorities of the workloads that are shown are floats. -/
def PrioritiesConvert (s : State) : Prop :=
  ∀ w r, s.workloads.get? w = some r → shown s w r → (PyFloat.ofInt? round r.spec.priority).isSome

/-- Of the ready workloads that have not waited too long, those with the same effective priority
were submitted in the order of their identifiers. -/
def SubmittedInOrder (s : State) (now : ℚ) : Prop :=
  ∀ v ∈ readyIds s, ∀ w ∈ readyIds s, ∀ rv rw,
    s.workloads.get? v = some rv → s.workloads.get? w = some rw →
    starvationOverride round times v now = false → starvationOverride round times w now = false →
    effectivePriority round times v rv.spec now = effectivePriority round times w rw.spec now →
    v ≤ w → times.submittedAt v ≤ times.submittedAt w

/-- The key of a waiting workload in the view. -/
def viewKey (s : State) (now : ℚ) (w : String) : Tuple :=
  if starvationOverride round times w now then
    [.num 0, .num (.finite (times.submittedAt w)), .str w]
  else
    [.num 1, .num (priorityOf round times s now w).neg, .num (.finite (times.submittedAt w)),
      .str w]

variable {round times} {s : State} {now : ℚ} {w : String} {spec : WorkloadSpec}

/-! ### Priorities are numbers -/

theorem nonneg_deadlinePriorityBonus :
    PyFloat.le 0 (deadlinePriorityBonus round times spec now) := by
  unfold deadlinePriorityBonus
  split
  · rfl
  · dsimp only
    split_ifs
    · rfl
    · exact PyFloat.nonneg_max _
    · rfl

theorem effectivePriority_eq {x : PyFloat} (h : effectivePriority round times w spec now = some x) :
    x = points round times w spec (.ofInt round spec.priority) now := by
  obtain ⟨p, hp, rfl⟩ := Option.map_eq_some_iff.1 h
  rw [PyFloat.eq_of_ofInt? hp]

theorem isSome_effectivePriority : (effectivePriority round times w spec now).isSome =
    (PyFloat.ofInt? round spec.priority).isSome := Option.isSome_map

theorem points_ne_nan (hr : PyFloat.Rounds round) :
    points round times w spec (.ofInt round spec.priority) now ≠ .nan := by
  have hage :=
    hr.div (PyFloat.nonneg_max (.sub round (.finite now) (.finite (times.submittedAt w))))
    (show (0 : ℚ) < 60 by norm_num)
  have hpriority : PyFloat.le 0 (.ofInt round spec.priority) := hr.nonneg _ (by simp)
  refine PyFloat.ne_nan_of_nonneg (hr.add (hr.add ?_ ?_) nonneg_deadlinePriorityBonus)
  · exact PyFloat.nonneg_min rfl hpriority
  · exact PyFloat.nonneg_min rfl (hr.mul hage (by norm_num))

/-! ### Ready workloads -/

/-- The dependency check collects some of the workloads that it looks at, in their order. -/
theorem foldl_checkReady_sublist (l : List String) (acc : State × List String) :
    ∃ l', l'.Sublist l ∧ (l.foldl State.checkReady acc).2 = acc.2 ++ l' := by
  induction l generalizing acc with
  | nil => exact ⟨[], .slnil, (List.append_nil _).symm⟩
  | cons v l ih =>
    obtain ⟨l', hsub, hl'⟩ := ih (State.checkReady acc v)
    have hone : (State.checkReady acc v).2 = acc.2 ++ [v] ∨ (State.checkReady acc v).2 = acc.2 := by
      unfold State.checkReady
      split
      · split
        · exact .inl rfl
        · exact .inr rfl
      · exact .inr rfl
    rw [List.foldl_cons, hl']
    rcases hone with hone | hone <;> rw [hone]
    · exact ⟨v :: l', hsub.cons_cons v, List.append_cons .. ▸ rfl⟩
    · exact ⟨l', hsub.cons v, rfl⟩

theorem readyIds_sublist (s : State) : (readyIds s).Sublist s.pendingIds := by
  obtain ⟨l, hsub, hl⟩ := foldl_checkReady_sublist s.pendingIds (s, [])
  rw [readyIds, hl]
  exact hsub

theorem nodup_readyIds (s : State) : (readyIds s).Nodup :=
  (readyIds_sublist s).nodup (s.queued.nodup.filter _)

theorem waiting_of_ready (h : w ∈ readyIds s) :
    ∃ r, s.workloads.get? w = some r ∧ r.state = .submitted ∧ w ∉ s.processing := by
  obtain ⟨-, hp⟩ := List.mem_filter.1 ((readyIds_sublist s).subset h)
  rw [Bool.and_eq_true, decide_eq_true_iff, decide_eq_true_iff] at hp
  obtain ⟨r, hr, hst⟩ := Option.map_eq_some_iff.1 hp.1
  exact ⟨r, hr, hst, hp.2⟩

/-! ### Keys -/

theorem getLast?_viewKey : (viewKey round times s now w).getLast? = some (.str w) := by
  unfold viewKey
  split_ifs <;> rfl

theorem getLast?_admissionKey : (admissionKey round times s now w).getLast? = some (.str w) := by
  unfold admissionKey
  split_ifs <;> rfl

theorem neg_priorityOf_ne_nan (hr : PyFloat.Rounds round) (times : QueueTimes) (s : State) (now : ℚ)
    (w : String) : (priorityOf round times s now w).neg ≠ .nan := by
  refine PyFloat.neg_ne_nan ?_
  unfold priorityOf
  cases hp : (s.workloads.get? w).bind fun r => effectivePriority round times w r.spec now with
  | none => nofun
  | some x =>
    obtain ⟨r, -, hx⟩ := Option.bind_eq_some_iff.1 hp
    rw [Option.getD_some, effectivePriority_eq hx]
    exact points_ne_nan hr

theorem separates_viewKey (hr : PyFloat.Rounds round) (l : List String) :
    Separates (viewKey round times s now) l where
  comparable w _ := by
    have hne := neg_priorityOf_ne_nan hr times s now w
    unfold viewKey Tuple.Comparable
    split_ifs
    · simp
    · simp [hne]
  inj v _ w _ h := by
    have hlast := congrArg List.getLast? h
    rw [getLast?_viewKey, getLast?_viewKey] at hlast
    exact KeyItem.str.inj (Option.some.inj hlast)

theorem separates_admissionKey (hr : PyFloat.Rounds round) (l : List String) :
    Separates (admissionKey round times s now) l where
  comparable w _ := by
    have hne := neg_priorityOf_ne_nan hr times s now w
    unfold admissionKey Tuple.Comparable
    split_ifs
    · simp
    · simp [hne]
  inj v _ w _ h := by
    have hlast := congrArg List.getLast? h
    rw [getLast?_admissionKey, getLast?_admissionKey] at hlast
    exact KeyItem.str.inj (Option.some.inj hlast)

/-! ### The rows -/

theorem queueRow_some {r : WorkloadRecord} {row : QueueRow} (hw : s.workloads.get? w = some r)
    (h : queueRow round times s now w r = some row) :
    row.workloadId = w ∧ (row.dispatching = true ↔ w ∈ s.processing) ∧
      row.sortKey = viewKey round times s now w := by
  unfold queueRow at h
  by_cases hout : (!shown s w r) = true
  · rw [if_pos hout] at h
    cases h
  rw [if_neg hout] at h
  obtain rfl := Option.some.inj h
  refine ⟨rfl, decide_eq_true_iff, ?_⟩
  unfold QueueRow.sortKey viewKey priorityOf
  rw [hw]
  rfl

theorem nodup_rows (s : State) (now : ℚ) : ((s.workloads.entries.filterMap fun e =>
    queueRow round times s now e.1 e.2).map (·.workloadId)).Nodup :=
  Dict.nodup_map_filterMap_entries fun _ _ _ hr hrow => (queueRow_some hr hrow).1

theorem filter_numberRows (n : ℕ) (rows : List QueueRow) :
    ((numberRows n rows).filter (!·.dispatching)).map (·.workloadId) =
      (rows.filter (!·.dispatching)).map (·.workloadId) := by
  induction rows generalizing n with
  | nil => rfl
  | cons row rows ih =>
    unfold numberRows
    cases hrow : row.dispatching with
    | true =>
      rw [if_pos rfl, List.filter_cons_of_neg (by simp [hrow]),
        List.filter_cons_of_neg (by simp [hrow]), ih]
    | false =>
      rw [if_neg (by simp), List.filter_cons_of_pos (by simp),
        List.filter_cons_of_pos (by simp [hrow]), List.map_cons, List.map_cons, ih]

/-- The waiting workloads as they are sorted. -/
def sortedPending (round : ℚ → PyFloat) (times : QueueTimes) (s : State) (now : ℚ) : List String :=
  ((sortBy QueueRow.sortKey (s.workloads.entries.filterMap fun e =>
    queueRow round times s now e.1 e.2)).filter (!·.dispatching)).map (·.workloadId)

theorem makesRows_iff (s : State) (now : ℚ) : (s.workloads.entries.all fun e =>
    !shown s e.1 e.2 || (effectivePriority round times e.1 e.2.spec now).isSome) = true ↔
      PrioritiesConvert round s := by
  rw [List.all_eq_true]
  constructor
  · intro h w r hr hshown
    have he := h (w, r) (Dict.mem_entries.2 hr)
    rw [hshown, isSome_effectivePriority] at he
    exact he
  · intro h e he
    rw [isSome_effectivePriority]
    cases hshown : shown s e.1 e.2 with
    | false => rfl
    | true => exact h e.1 e.2 (Dict.mem_entries.1 he) hshown

theorem pendingOrder_eq (h : PrioritiesConvert round s) : pendingOrder round times s now =
    some (sortedPending round times s now) := by
  unfold pendingOrder queueSnapshot sortedPending
  rw [if_pos ((makesRows_iff s now).2 h), Option.map_some]
  dsimp only [Option.all_none]
  rw [List.filter_true, filter_numberRows]

theorem pendingOrder_raises (h : ¬ PrioritiesConvert round s) :
    pendingOrder round times s now = none := by
  unfold pendingOrder queueSnapshot
  rw [if_neg (mt (makesRows_iff s now).1 h)]
  rfl

theorem pairwise_sortedPending (hr : PyFloat.Rounds round) (s : State) (now : ℚ) :
    (sortedPending round times s now).Pairwise (keyLe (viewKey round times s now)) := by
  have hkey : ∀ row ∈ s.workloads.entries.filterMap fun e => queueRow round times s now e.1 e.2,
      row.sortKey = viewKey round times s now row.workloadId := by
    intro row hrow
    obtain ⟨⟨w, r⟩, hmem, hrow⟩ := List.mem_filterMap.1 hrow
    obtain ⟨hid, -, hkey⟩ := queueRow_some (Dict.mem_entries.1 hmem) hrow
    rw [hkey, hid]
  have hsorted : (sortBy QueueRow.sortKey (s.workloads.entries.filterMap fun e =>
      queueRow round times s now e.1 e.2)).Pairwise (keyLe QueueRow.sortKey) := by
    refine pairwise_sortBy fun row hrow => ?_
    rw [hkey row hrow]
    exact (separates_viewKey hr _).comparable _ (List.mem_singleton_self _)
  rw [sortedPending, List.pairwise_map]
  refine (hsorted.imp_of_mem fun ha hb hab => ?_).filter _
  rw [keyLe, ← hkey _ ((List.mem_insertionSort _).1 ha), ← hkey _ ((List.mem_insertionSort _).1 hb)]
  exact hab

theorem nodup_sortedPending (s : State) (now : ℚ) : (sortedPending round times s now).Nodup := by
  have hperm := (List.perm_insertionSort (keyLe QueueRow.sortKey) (s.workloads.entries.filterMap
    fun e => queueRow round times s now e.1 e.2)).map (·.workloadId)
  exact (hperm.nodup_iff.2 (nodup_rows s now)).sublist (List.filter_sublist.map _)

theorem shown_of_ready (h : w ∈ readyIds s) :
    ∃ r, s.workloads.get? w = some r ∧ shown s w r = true := by
  obtain ⟨r, hr, hst, -⟩ := waiting_of_ready h
  exact ⟨r, hr, by rw [shown, hst]; rfl⟩

/-- A ready workload is in the view. -/
theorem mem_sortedPending (h : w ∈ readyIds s) : w ∈ sortedPending round times s now := by
  obtain ⟨r, hr, hshown⟩ := shown_of_ready h
  obtain ⟨-, -, -, hproc⟩ := waiting_of_ready h
  obtain ⟨row, hrow⟩ : ∃ row, queueRow round times s now w r = some row := by
    unfold queueRow
    rw [hshown]
    exact ⟨_, rfl⟩
  obtain ⟨hid, hdispatching, -⟩ := queueRow_some hr hrow
  refine List.mem_map.2 ⟨row, List.mem_filter.2 ⟨(List.mem_insertionSort _).2 ?_, ?_⟩, hid⟩
  · exact List.mem_filterMap.2 ⟨(w, r), Dict.mem_entries.2 hr, hrow⟩
  · rw [Bool.not_eq_true', ← Bool.not_eq_true, hdispatching]
    exact hproc

/-- The admission loop makes the keys of its workloads if the view makes its rows. -/
theorem admissionOrder_eq (h : PrioritiesConvert round s) : admissionOrder round times s now =
    some (sortBy (admissionKey round times s now) (readyIds s)) := by
  refine if_pos (List.all_eq_true.2 fun w hw => ?_)
  obtain ⟨r, hr, hshown⟩ := shown_of_ready hw
  rw [hr, Option.all_some, isSome_effectivePriority, h w r hr hshown, Bool.or_true]

/-- In both orders a workload comes before another in the same cases, unless both have the same
effective priority. -/
theorem keyLe_imp_iff {v w : String} {rv rw : WorkloadRecord}
    (hv : s.workloads.get? v = some rv) (hw : s.workloads.get? w = some rw)
    (hpv : (effectivePriority round times v rv.spec now).isSome)
    (hpw : (effectivePriority round times w rw.spec now).isSome) :
    (keyLe (admissionKey round times s now) v w → keyLe (viewKey round times s now) v w) ↔
      (starvationOverride round times v now = false → starvationOverride round times w now = false →
        effectivePriority round times v rv.spec now = effectivePriority round times w rw.spec now →
        v ≤ w → times.submittedAt v ≤ times.submittedAt w) := by
  obtain ⟨pv, hpv⟩ := Option.isSome_iff_exists.1 hpv
  obtain ⟨pw, hpw⟩ := Option.isSome_iff_exists.1 hpw
  unfold keyLe admissionKey viewKey priorityOf
  rw [hv, hw, Option.bind_some, Option.bind_some, hpv, hpw, Option.getD_some, Option.getD_some]
  have h01 : (0 : PyFloat) ≠ 1 := by decide
  cases hsv : starvationOverride round times v now <;>
    cases hsw : starvationOverride round times w now
  · rcases eq_or_ne pv pw with rfl | hne
    · -- at equal priority the identifiers decide, or before them the times of submission
      have hids : (¬ w = v → (KeyItem.str w).lt (.str v) = false) ↔ v ≤ w := by
        rcases eq_or_ne w v with rfl | hne
        · simp
        · rw [KeyItem.lt, decide_eq_false_iff_not, not_lt]
          exact forall_prop_of_true hne
      have htimes : (KeyItem.num (.finite (times.submittedAt w))).lt
          (.num (.finite (times.submittedAt v))) = false ↔
            times.submittedAt v ≤ times.submittedAt w := by
        simp [KeyItem.lt, PyFloat.lt]
      simp only [Bool.false_eq_true, ↓reduceIte, Tuple.lt, KeyItem.str.injEq, Bool.if_false_left,
        Bool.and_eq_false_imp, Bool.not_eq_eq_eq_not,
        Bool.not_true, decide_eq_false_iff_not, KeyItem.num.injEq, PyFloat.finite.injEq,
        Bool.ite_eq_false_distrib, forall_const]
      rw [hids, htimes]
      split_ifs with hsame
      · rw [hsame]
        simp
      · rfl
    · have hneg : pw.neg ≠ pv.neg := fun h => hne (PyFloat.neg_inj.1 h).symm
      simp [Tuple.lt, hne, hneg]
  · simp [Tuple.lt, KeyItem.lt, h01]
  · simp [Tuple.lt, KeyItem.lt, h01.symm]
  · simp

/-- **The view shows the order of the admission loop exactly when** the priorities of the workloads
in it are floats, and ready workloads of the same effective priority that have not waited too long
were submitted in the order of their identifiers. -/
theorem queueSnapshot_order_iff (hr : PyFloat.Rounds round) (times : QueueTimes) (s : State)
    (now : ℚ) : ShowsDispatchOrder round times s now ↔
      PrioritiesConvert round s ∧ SubmittedInOrder round times s now := by
  unfold ShowsDispatchOrder
  by_cases hconvert : PrioritiesConvert round s
  swap
  · rw [pendingOrder_raises hconvert]
    exact iff_of_false (fun h => by cases h.1) fun h => hconvert h.1
  rw [pendingOrder_eq hconvert, admissionOrder_eq hconvert, Option.map_some, Option.some_inj]
  rw [Option.isSome_some, eq_self, true_and, and_iff_right hconvert]
  have hadmission : (sortBy (admissionKey round times s now) (readyIds s)).Perm (readyIds s) :=
    List.perm_insertionSort _ _
  have hview : (sortBy (admissionKey round times s now) (readyIds s)).Perm
      ((sortedPending round times s now).filter (· ∈ readyIds s)) := by
    refine hadmission.trans ((List.perm_ext_iff_of_nodup (nodup_readyIds s)
      ((nodup_sortedPending s now).filter _)).2 fun w => ?_)
    rw [List.mem_filter, decide_eq_true_iff]
    exact ⟨fun h => ⟨mem_sortedPending h, h⟩, fun h => h.2⟩
  have hsorted : (sortBy (admissionKey round times s now) (readyIds s)).Pairwise
      (keyLe (admissionKey round times s now)) :=
    pairwise_sortBy (separates_admissionKey hr _).comparable
  have hpriority : ∀ {w r}, s.workloads.get? w = some r → w ∈ readyIds s →
      (effectivePriority round times w r.spec now).isSome := by
    intro w r hget hready
    obtain ⟨r', hr', hshown⟩ := shown_of_ready hready
    obtain rfl := Option.some.inj (hget.symm.trans hr')
    rw [isSome_effectivePriority]
    exact hconvert w r hget hshown
  rw [eq_comm, eq_iff_of_pairwise (separates_admissionKey hr _)
    (separates_viewKey hr _) hsorted ((pairwise_sortedPending hr s now).filter _) hview]
  constructor
  · intro h v hv w hw rv rw hrv hrw
    exact (keyLe_imp_iff hrv hrw (hpriority hrv hv) (hpriority hrw hw)).1
      (h v (hadmission.mem_iff.2 hv) w (hadmission.mem_iff.2 hw))
  · intro h v hv w hw
    have hv := hadmission.mem_iff.1 hv
    have hw := hadmission.mem_iff.1 hw
    obtain ⟨rv, hrv, -⟩ := waiting_of_ready hv
    obtain ⟨rw, hrw, -⟩ := waiting_of_ready hw
    exact (keyLe_imp_iff hrv hrw (hpriority hrv hv)
      (hpriority hrw hw)).2 (h v hv w hw rv rw hrv hrw)

instance (s : State) (now : ℚ) : Decidable (ShowsDispatchOrder round times s now) :=
  inferInstanceAs (Decidable (_ ∧ _))

/-- Two workloads that wait, with their priorities. -/
def waitingPair (priorityA priorityZ : ℕ) : State where
  workloads := Dict.set (Dict.set ∅ "a" { spec :=
      { workloadId := "a", taskType := "compute", priority := priorityA } }) "z" { spec :=
      { workloadId := "z", taskType := "compute", priority := priorityZ } }
  queued := PySet.ofList ["a", "z"]

/-- The workload `z` was submitted a minute before the workload `a`. -/
def waitingTimes : QueueTimes where
  submittedAt w := if w = "z" then 1000 else 1060
  durationEma _ := none

/-- The workload of the higher priority is shown and started first. -/
theorem queueSnapshot_order_priorities :
    SubmittedInOrder .finite waitingTimes (waitingPair 50 60) 1060 ∧
      pendingOrder .finite waitingTimes (waitingPair 50 60) 1060 = some ["z", "a"] :=
  ⟨((queueSnapshot_order_iff PyFloat.rounds_finite waitingTimes (waitingPair 50 60) 1060).1
    (by decide +kernel)).2, by decide +kernel⟩

/-- With the age of `z` both have the same effective priority: the view shows `z` first, and the
admission loop starts `a` first. -/
theorem queueSnapshot_order_tie : ¬ ∀ (round : ℚ → PyFloat) (times : QueueTimes) (s : State)
    (now : ℚ), PyFloat.Rounds round → ShowsDispatchOrder round times s now := by
  intro hclaim
  have hshown := hclaim .finite waitingTimes (waitingPair 50 40) 1060 PyFloat.rounds_finite
  revert hshown
  decide +kernel

end Aidars.Orchestrator
