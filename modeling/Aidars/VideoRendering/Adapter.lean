import Aidars.Foundations.Ranges
import Aidars.Foundations.Rounding
import Mathlib.Algebra.BigOperators.Ring.List
import Mathlib.Algebra.Order.BigOperators.Group.List
import Mathlib.Data.Rat.Floor

/-!
# Splitting a video

A video is split among the workers of a request, to each a segment whose duration is its share of
the throughput scores. The start and the duration of a segment are rounded to milliseconds, each for
itself: `evaluateRequest`.

`tilesTimeline_iff` says when the rounded segments follow each other without a gap: exactly if the
roundings of the durations, added up, never pass half a millisecond.
-/

namespace Aidars.VideoRendering

variable {W : Type*}

/-- What splitting reads of a request for a video. -/
structure VideoRequest (W : Type*) where
  workerCount : ℤ := 1
  workers : List W := []
  duration : Option ℚ := none
  totalDuration : Option ℚ := none
  estimatedDurationSeconds : Option ℚ := none

/-- The part of a video that a worker gets. -/
structure Segment where
  startTime : ℚ
  duration : ℚ
  deriving DecidableEq

/-- What splitting writes into the specification of a workload. -/
structure VideoSpec where
  chunkIndex : ℕ
  segment : Option Segment
  estimatedDurationSeconds : ℚ
  deriving DecidableEq

namespace VideoRequest

/-- The duration of the video, with its default. -/
def total (request : VideoRequest W) : ℚ :=
  request.duration.getD (request.totalDuration.getD 60)

/-- The scores of the workers, or equal ones if none are given. -/
def scores (throughput : W → ℚ) (request : VideoRequest W) : List ℚ :=
  if request.workers = [] then List.replicate request.workerCount.toNat 1
  else request.workers.map throughput

end VideoRequest

/-- The shares of a duration. -/
def durations (totalDuration : ℚ) (scores : List ℚ) : List ℚ :=
  let totalScore := if scores.sum = 0 then 1 else scores.sum
  scores.map fun s => totalDuration * (s / totalScore)

/-- The specifications of the chunks from the index `idx` on. -/
def chunkSpecs (currStart : ℚ) (idx : ℕ) : List ℚ → List VideoSpec
  | [] => []
  | dur :: durs =>
    { chunkIndex := idx
      segment := some ⟨roundTo 3 currStart, roundTo 3 dur⟩
      estimatedDurationSeconds := dur * (1 / 2) } :: chunkSpecs (currStart + dur) (idx + 1) durs

/-- The workloads of a request. -/
def evaluateRequest (throughput : W → ℚ) (request : VideoRequest W) : List VideoSpec :=
  if (1 < request.workerCount ∨ 1 < request.workers.length) ∧ 0 < request.total then
    chunkSpecs 0 0 (durations request.total (request.scores throughput))
  else
    [{ chunkIndex := 0
       segment := none
       estimatedDurationSeconds := request.estimatedDurationSeconds.getD 30 }]

/-! ## The timeline -/

/-- The time from the start of a segment to its end. -/
def Segment.interval (s : Segment) : ℚ × ℚ := (s.startTime, s.startTime + s.duration)

/-- Every workload has a segment, the first begins at 0, each ends where the next begins, and the
last ends at the end of the video. -/
def TilesTimeline (totalDuration : ℚ) (specs : List VideoSpec) : Prop :=
  ∃ segments : List Segment, specs.map (·.segment) = segments.map some ∧
    Chained 0 (roundTo 3 totalDuration) (segments.map Segment.interval)

/-- The shares of the workers in milliseconds, as they are before rounding. -/
def shares (totalDuration : ℚ) (scores : List ℚ) : List ℚ :=
  scores.map fun s => 1000 * totalDuration * s / scores.sum

/-- What rounding to whole milliseconds takes from some shares, in all. -/
def drift (l : List ℚ) : ℚ := (l.map fun x : ℚ => x - roundEven x).sum

/-- The roundings of the first shares never take or give more than half a millisecond in all, and
half a millisecond only if the rounded shares make an even number of milliseconds. -/
def Steady (l : List ℚ) : Prop :=
  ∀ k ≤ l.length, |drift (l.take k)| < 1 / 2 ∨
    |drift (l.take k)| = 1 / 2 ∧ Even ((l.take k).map roundEven).sum

instance (l : List ℚ) : Decidable (Steady l) := inferInstanceAs (Decidable (∀ k ≤ l.length, _))

/-- The segments that are written from a start on. -/
def segmentsFrom (currStart : ℚ) : List ℚ → List Segment
  | [] => []
  | dur :: durs => ⟨roundTo 3 currStart, roundTo 3 dur⟩ :: segmentsFrom (currStart + dur) durs

theorem map_segment_chunkSpecs (durs : List ℚ) (currStart : ℚ) (idx : ℕ) :
    (chunkSpecs currStart idx durs).map (·.segment) = (segmentsFrom currStart durs).map some := by
  induction durs generalizing currStart idx with
  | nil => rfl
  | cons dur durs ih =>
    simp only [chunkSpecs, segmentsFrom, List.map_cons, ih]

theorem tilesTimeline_chunkSpecs {totalDuration : ℚ} {durs : List ℚ} :
    TilesTimeline totalDuration (chunkSpecs 0 0 durs) ↔
      Chained 0 (roundTo 3 totalDuration) ((segmentsFrom 0 durs).map Segment.interval) := by
  unfold TilesTimeline
  rw [map_segment_chunkSpecs]
  constructor
  · rintro ⟨segments, heq, h⟩
    rwa [List.map_injective_iff.mpr (Option.some_injective _) heq]
  · exact fun h => ⟨_, rfl, h⟩

/-- Segments follow each other exactly if each start is the sum of the durations before it. -/
theorem chained_segmentsFrom {a c : ℚ} {durs : List ℚ} :
    Chained a (roundTo 3 (c + durs.sum)) ((segmentsFrom c durs).map Segment.interval) ↔
      a = roundTo 3 c ∧ ∀ k ≤ durs.length,
        roundTo 3 (c + (durs.take k).sum) = roundTo 3 c + ((durs.take k).map (roundTo 3)).sum := by
  induction durs generalizing a c with
  | nil => simp [Chained, segmentsFrom]
  | cons dur durs ih =>
    have hstep := ih (a := roundTo 3 c + roundTo 3 dur) (c := c + dur)
    rw [segmentsFrom, List.map_cons, Chained, Segment.interval, List.sum_cons, ← add_assoc, hstep,
      eq_comm]
    refine and_congr_right fun _ => ⟨?_, fun h => ⟨?_, fun k hk => ?_⟩⟩
    · rintro ⟨hnext, h⟩ k hk
      cases k with
      | zero => simp
      | succ k =>
        rw [List.take_succ_cons, List.map_cons, List.sum_cons, List.sum_cons, ← add_assoc,
          h k (by simpa using hk), ← hnext, add_assoc]
    · simpa using (h 1 (by simp)).symm
    · have h1 := h 1 (by simp)
      have hk' := h (k + 1) (by simpa using hk)
      simp only [List.take_succ_cons, List.map_cons, List.sum_cons, List.take_zero, List.map_nil,
        List.sum_nil, add_zero] at h1 hk'
      rw [h1, add_assoc, hk', add_assoc]

theorem sum_map_roundTo (l : List ℚ) :
    (l.map (roundTo 3)).sum = ((l.map fun x => roundEven (1000 * x)).sum : ℚ) / 10 ^ 3 := by
  induction l with
  | nil => simp
  | cons x l ih =>
    rw [List.map_cons, List.sum_cons, ih, List.map_cons, List.sum_cons, Int.cast_add, add_div,
      roundTo, mul_comm]
    norm_num

/-- A sum is rounded to the sum of the rounded numbers exactly if the roundings make at most half of
a unit in all. -/
theorem roundEven_sum_iff (l : List ℚ) :
    roundEven l.sum = (l.map roundEven).sum ↔
      |drift l| < 1 / 2 ∨ |drift l| = 1 / 2 ∧ Even (l.map roundEven).sum := by
  have hdrift : drift l = l.sum - ((l.map roundEven).sum : ℤ) := by
    unfold drift
    induction l with
    | nil => simp
    | cons x l ih =>
      simp only [List.map_cons, List.sum_cons, ih, Int.cast_add]
      ring
  rw [roundEven_eq_iff, Nearest, hdrift]

/-- Rounding the shares in milliseconds is rounding the durations in seconds. -/
theorem roundTo_sum_iff (durs : List ℚ) :
    roundTo 3 durs.sum = (durs.map (roundTo 3)).sum ↔
      roundEven (durs.map (1000 * ·)).sum = ((durs.map (1000 * ·)).map roundEven).sum := by
  have hsum : durs.sum * 10 ^ 3 = (durs.map (1000 * ·)).sum := by
    rw [List.sum_map_mul_left, mul_comm]
    norm_num
  rw [sum_map_roundTo, roundTo_eq_iff, hsum, List.map_map]
  rfl

theorem sum_durations {totalDuration : ℚ} {scores : List ℚ} (h : scores.sum ≠ 0) :
    (durations totalDuration scores).sum = totalDuration := by
  rw [durations, if_neg h, List.sum_map_mul_left]
  simp only [div_eq_mul_inv, List.sum_map_mul_right]
  rw [List.map_id', mul_inv_cancel₀ h, mul_one]

theorem map_durations {totalDuration : ℚ} {scores : List ℚ} (h : scores.sum ≠ 0) :
    (durations totalDuration scores).map (1000 * ·) = shares totalDuration scores := by
  rw [durations, if_neg h, List.map_map, shares]
  refine List.map_congr_left fun s _ => ?_
  simp only [Function.comp_apply]
  ring

theorem evaluateRequest_eq (throughput : W → ℚ) {request : VideoRequest W}
    (htotal : 0 < request.total) (htwo : 2 ≤ (request.scores throughput).length) :
    evaluateRequest throughput request =
      chunkSpecs 0 0 (durations request.total (request.scores throughput)) := by
  have hmany : 1 < request.workerCount ∨ 1 < request.workers.length := by
    unfold VideoRequest.scores at htwo
    split_ifs at htwo with hworkers
    · rw [List.length_replicate] at htwo
      left
      omega
    · rw [List.length_map] at htwo
      exact .inr htwo
  rw [evaluateRequest, if_pos ⟨hmany, htotal⟩]

/-- **The segments tile the timeline exactly if the roundings of the durations stay within half a
millisecond in all.** -/
theorem tilesTimeline_iff (throughput : W → ℚ) (request : VideoRequest W)
    (htotal : 0 < request.total) (htwo : 2 ≤ (request.scores throughput).length)
    (hpos : ∀ s ∈ request.scores throughput, 0 < s) :
    TilesTimeline request.total (evaluateRequest throughput request) ↔
      Steady (shares request.total (request.scores throughput)) := by
  rw [evaluateRequest_eq throughput htotal htwo, tilesTimeline_chunkSpecs]
  generalize request.scores throughput = scores at htwo hpos
  have hsum : scores.sum ≠ 0 := by
    have hne : scores ≠ [] := by
      rintro rfl
      simp at htwo
    exact (List.sum_pos scores hpos hne).ne'
  have hchained := @chained_segmentsFrom 0 0 (durations request.total scores)
  rw [zero_add, sum_durations hsum] at hchained
  rw [hchained, roundTo_zero, ← map_durations hsum, Steady, List.length_map]
  simp only [zero_add, true_and, ← List.map_take]
  refine forall₂_congr fun k _ => ?_
  rw [roundTo_sum_iff, roundEven_sum_iff]

/-- Ten seconds of video for a number of workers of equal scores. -/
def tenSeconds (n : ℕ) : VideoRequest ℚ where
  workers := List.replicate n 1
  duration := some 10

theorem tilesTimeline_two : TilesTimeline 10 (evaluateRequest id (tenSeconds 2)) := by
  have h := tilesTimeline_iff id (tenSeconds 2) (by decide) (by decide) (by decide)
  have hsteady : Steady (shares (tenSeconds 2).total ((tenSeconds 2).scores id)) := by
    decide +kernel
  exact h.mpr hsteady

/-- The second of three segments ends a millisecond before the third begins. -/
theorem not_tilesTimeline_three :
    ¬TilesTimeline 10 (evaluateRequest id (tenSeconds 3)) := by
  rintro ⟨segments, heq, hchained⟩
  have hspecs : (evaluateRequest id (tenSeconds 3)).map (·.segment) =
      [⟨0, 3333 / 1000⟩, ⟨3333 / 1000, 3333 / 1000⟩, ⟨6667 / 1000, 3333 / 1000⟩].map some := by
    decide +kernel
  rw [hspecs] at heq
  obtain rfl := List.map_injective_iff.mpr (Option.some_injective _) heq
  obtain ⟨-, -, hthird, -⟩ := hchained
  norm_num [Segment.interval] at hthird

end Aidars.VideoRendering
