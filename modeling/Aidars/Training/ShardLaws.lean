import Aidars.Training.Hook
import Aidars.Training.Shards
import Mathlib.Algebra.BigOperators.Ring.List
import Mathlib.Algebra.Order.BigOperators.Group.List

/-!
# When shards partition a data set

A border between shards is rounded from the rounded border before it, so that the roundings add up.
In ten-thousandths the widths of the shards are the rounded shares of all workers but the last, who
gets the rest: `RoundedFrom`. By these widths `shardLaws_iff` and `countsSum_iff` say when the
ratios are in order, when the workers together take every sample once, and when the counted samples
make all samples.
-/

namespace Aidars.Training

/-! ## What is asked of shards -/

/-- The indices that the workers take of a data set. -/
def indexRanges (ratios : List (ℚ × ℚ)) (n : ℤ) : List (ℤ × ℤ) :=
  ratios.map fun r => getShardRange {} n (some r.1) (some r.2)

/-- The ratios are in order between 0 and 1 and end to end; and if each part is at least one sample
long, the workers together take every sample once. -/
structure ShardLaws (ratios : List (ℚ × ℚ)) (n : ℤ) : Prop where
  bounds : ∀ r ∈ ratios, 0 ≤ r.1 ∧ r.1 ≤ r.2 ∧ r.2 ≤ 1
  chained : Chained 0 1 ratios
  partitions : (∀ r ∈ ratios, 1 / (n : ℚ) ≤ r.2 - r.1) → Partitions n (indexRanges ratios n)

/-- Some counts make all samples. -/
structure CountsSum (counts : List ℤ) (samples : ℕ) : Prop where
  nonneg : ∀ c ∈ counts, 0 ≤ c
  sum : counts.sum = samples

/-! ## Rounded shares -/

/-- The shares in ten-thousandths. -/
def tenThousandths (scores : List ℚ) : List ℚ := scores.map fun s => 10 ^ 4 * s / scores.sum

/-- The widths, from a border on: the shares rounded to ten-thousandths, of two the one that makes
the next border even, and the rest for the last. -/
inductive RoundedFrom : ℤ → List ℚ → List ℤ → Prop
  | rest (u : ℤ) (x : ℚ) : RoundedFrom u [x] [10 ^ 4 - u]
  | round {u w : ℤ} {x : ℚ} {xs : List ℚ} {ws : List ℤ}
      (near : |x - w| < 1 / 2 ∨ |x - w| = 1 / 2 ∧ Even (u + w))
      (later : RoundedFrom (u + w) xs ws) : RoundedFrom u (x :: xs) (w :: ws)

/-- The parts of the given widths, end to end. -/
def partsFrom (u : ℤ) : List ℤ → List (ℤ × ℤ)
  | [] => []
  | w :: ws => (u, u + w) :: partsFrom (u + w) ws

/-- The ratios of a part in ten-thousandths. -/
def toRatio (u : ℤ) : ℚ := u / 10 ^ 4

theorem exists_roundedFrom (u : ℤ) {xs : List ℚ} (h : xs ≠ []) : ∃ ws, RoundedFrom u xs ws := by
  induction xs generalizing u with
  | nil => exact absurd rfl h
  | cons x xs ih =>
    cases xs with
    | nil => exact ⟨_, .rest u x⟩
    | cons y xs =>
      obtain ⟨ws, hws⟩ := ih (roundEven (u + x)) (List.cons_ne_nil y xs)
      have hnear := nearest_roundEven ((u : ℚ) + x)
      refine ⟨(roundEven (u + x) - u) :: ws, .round ?_ ?_⟩
      · unfold Nearest at hnear
        have hcast : x - ((roundEven (u + x) - u : ℤ) : ℚ) = u + x - roundEven (u + x) := by
          push_cast
          ring
        rwa [hcast, add_sub_cancel]
      · rwa [add_sub_cancel]

theorem RoundedFrom.sum {u : ℤ} {xs : List ℚ} {ws : List ℤ} (h : RoundedFrom u xs ws) :
    u + ws.sum = 10 ^ 4 := by
  induction h with
  | rest u x => simp
  | round near later ih => rw [List.sum_cons, ← add_assoc, ih]

theorem chained_partsFrom (u : ℤ) (ws : List ℤ) : Chained u (u + ws.sum) (partsFrom u ws) := by
  induction ws generalizing u with
  | nil => exact (add_zero u).symm
  | cons w ws ih =>
    rw [List.sum_cons, ← add_assoc]
    exact ⟨rfl, ih (u + w)⟩

theorem widths_partsFrom (u : ℤ) (ws : List ℤ) :
    (partsFrom u ws).map (fun p => p.2 - p.1) = ws := by
  induction ws generalizing u with
  | nil => rfl
  | cons w ws ih => rw [partsFrom, List.map_cons, ih, add_sub_cancel_left]

theorem forall_mem_widths {u : ℤ} {ws : List ℤ} {P : ℤ → Prop} :
    (∀ w ∈ ws, P w) ↔ ∀ p ∈ partsFrom u ws, P (p.2 - p.1) := by
  conv_lhs => rw [← widths_partsFrom u ws, List.forall_mem_map]

/-- **The ratios of the loop are the parts of the rounded widths.** -/
theorem shardLoop_eq {u : ℤ} {xs : List ℚ} {ws : List ℤ} (h : RoundedFrom u xs ws) {n i : ℕ}
    {l : List (Option TrainingWorker × ℚ)} (hxs : l.map (fun p => 10 ^ 4 * p.2) = xs)
    (hn : i + l.length = n) :
    shardLoop (fun _ _ s e => (s, e)) n (toRatio u) i l =
      (partsFrom u ws).map (Prod.map toRatio toRatio) := by
  induction h generalizing i l with
  | rest u x =>
    obtain ⟨p, rfl, -⟩ := List.map_eq_singleton_iff.mp hxs
    have hlast : i + 1 = n := hn
    norm_num [shardLoop, partsFrom, hlast, toRatio]
  | @round u w x xs ws near later ih =>
    obtain ⟨p, l, rfl, rfl, hl⟩ := List.map_eq_cons_iff.mp hxs
    have hne : l ≠ [] := by
      rintro rfl
      rw [List.map_nil] at hl
      subst hl
      cases later
    have hlater : i + 1 ≠ n := by
      have := List.length_pos_of_ne_nil hne
      rw [List.length_cons] at hn
      omega
    have hborder : roundTo 4 (toRatio u + p.2) = toRatio (u + w) := by
      rw [toRatio, toRatio, roundTo_eq_iff, roundEven_eq_iff, Nearest]
      have hsub : ((u : ℚ) / 10 ^ 4 + p.2) * 10 ^ 4 - ((u + w : ℤ) : ℚ) = 10 ^ 4 * p.2 - w := by
        push_cast
        ring
      rwa [hsub]
    rw [shardLoop, if_neg hlater, hborder, ih hl (by rw [List.length_cons] at hn; omega)]
    rfl

theorem map_shares {scores : List ℚ} (h : scores.sum ≠ 0) :
    (shares scores).map (10 ^ 4 * ·) = tenThousandths scores := by
  simp only [shares, if_neg h, List.map_map, tenThousandths]
  refine List.map_congr_left fun s _ => ?_
  simp only [Function.comp_apply]
  ring

theorem ratios_eq {workers : List (Option TrainingWorker)} {ws : List ℤ}
    (hsum : (workers.map throughputScore).sum ≠ 0)
    (h : RoundedFrom 0 (tenThousandths (workers.map throughputScore)) ws) :
    ratios workers = (partsFrom 0 ws).map (Prod.map toRatio toRatio) := by
  have hlen : workers.length = (shares (workers.map throughputScore)).length := by
    simp [shares]
  have hzero : toRatio 0 = 0 := by simp [toRatio]
  rw [ratios, splitAmong, ← hzero]
  refine shardLoop_eq h ?_ ?_
  · rw [← map_shares hsum]
    conv_rhs => rw [← List.map_snd_zip hlen.ge]
    rw [List.map_map]
    rfl
  · rw [List.length_zip, ← hlen, min_self, zero_add]

/-! ## The conditions -/

/-- No part is exactly one sample long and begins at an odd number of samples and a half. -/
def NoHalfSample (n : ℤ) (ws : List ℤ) : Prop :=
  ∀ p ∈ partsFrom 0 ws, ¬(n * (p.2 - p.1) = 10 ^ 4 ∧ ∃ m, Odd m ∧ n * p.1 = 10 ^ 4 * m + 5000)

/-- The shares of these scores, rounded, leave something for the last worker or nothing, and if all
parts are at least one sample of `n` long, none of that length begins halfway after an odd
sample. -/
def ShardsFit (scores : List ℚ) (n : ℤ) : Prop :=
  ∃ ws, RoundedFrom 0 (tenThousandths scores) ws ∧ (∀ w ∈ ws, 0 ≤ w) ∧
    ((∀ w ∈ ws, 10 ^ 4 ≤ n * w) → NoHalfSample n ws)

/-- So many ten-thousandths are rounded up to a whole number. -/
def RoundsUp (q : ℤ) : Prop := 5000 < q % 10 ^ 4 ∨ q % 10 ^ 4 = 5000 ∧ Odd (q / 10 ^ 4)

instance : DecidablePred RoundsUp := fun q =>
  inferInstanceAs (Decidable (5000 < q % 10 ^ 4 ∨ q % 10 ^ 4 = 5000 ∧ Odd (q / 10 ^ 4)))

/-- As many parts are rounded up to whole samples as the fractions of samples make in all. -/
def UpsFit (samples : ℕ) (ws : List ℤ) : Prop :=
  (ws.map fun w : ℤ => (samples : ℤ) * w % (10 ^ 4 : ℤ)).sum =
    10 ^ 4 * (ws.countP fun w => RoundsUp (samples * w) : ℤ)

instance (samples : ℕ) : DecidablePred (UpsFit samples) := fun ws =>
  inferInstanceAs (Decidable ((ws.map fun w : ℤ => (samples : ℤ) * w % (10 ^ 4 : ℤ)).sum = _))

/-- The rounded shares of these scores fit the number of samples. -/
def CountsFit (scores : List ℚ) (samples : ℕ) : Prop :=
  ∃ ws, RoundedFrom 0 (tenThousandths scores) ws ∧ UpsFit samples ws

/-! ## The laws -/

theorem roundEven_div (q : ℤ) :
    roundEven ((q : ℚ) / 10 ^ 4) = q / 10 ^ 4 + if RoundsUp q then 1 else 0 := by
  have hdivmod := Int.mul_ediv_add_emod q (10 ^ 4)
  have hlow := Int.emod_nonneg q (by norm_num : (10 ^ 4 : ℤ) ≠ 0)
  have hhigh := Int.emod_lt_of_pos q (by norm_num : (0 : ℤ) < 10 ^ 4)
  have hq : (q : ℚ) / 10 ^ 4 = (q / 10 ^ 4 : ℤ) + (q % 10 ^ 4 : ℤ) / 10 ^ 4 := by
    conv_lhs => rw [← hdivmod]
    push_cast
    ring
  have hrlow : (0 : ℚ) ≤ (q % 10 ^ 4 : ℤ) := by exact_mod_cast hlow
  have hrhigh : ((q % 10 ^ 4 : ℤ) : ℚ) < 10 ^ 4 := by exact_mod_cast hhigh
  rw [roundEven_eq_iff, Nearest, hq]
  split_ifs with hup
  all_goals
    unfold RoundsUp at hup
    generalize q / 10 ^ 4 = k at *
    generalize q % 10 ^ 4 = r at *
  · push_cast
    have hsub : (k : ℚ) + r / 10 ^ 4 - (k + 1) = r / 10 ^ 4 - 1 := by ring
    rw [hsub, abs_of_nonpos (by linarith)]
    rcases hup with hgt | ⟨heq, hodd⟩
    · have hcast : (5000 : ℚ) < r := by exact_mod_cast hgt
      left
      linarith
    · right
      subst heq
      exact ⟨by norm_num, hodd.add_one⟩
  · push Not at hup
    rw [add_zero, add_sub_cancel_left, abs_of_nonneg (by positivity)]
    rcases hup.1.lt_or_eq with hlt | heq
    · have hcast : (r : ℚ) < 5000 := by exact_mod_cast hlt
      left
      linarith
    · right
      have heven := Int.not_odd_iff_even.mp (hup.2 heq)
      subst heq
      exact ⟨by norm_num, heven⟩

/-- The ratios are in order exactly if no width is negative. -/
theorem bounds_iff {ws : List ℤ} (hsum : ws.sum = 10 ^ 4) :
    (∀ r ∈ (partsFrom 0 ws).map (Prod.map toRatio toRatio), 0 ≤ r.1 ∧ r.1 ≤ r.2 ∧ r.2 ≤ 1) ↔
      ∀ w ∈ ws, 0 ≤ w := by
  have hratio : ∀ {u v : ℤ}, toRatio u ≤ toRatio v ↔ u ≤ v := by
    intro u v
    rw [toRatio, toRatio, div_le_div_iff_of_pos_right (by norm_num), Int.cast_le]
  have hzero : toRatio 0 = 0 := by simp [toRatio]
  have hone : toRatio (10 ^ 4) = 1 := by norm_num [toRatio]
  rw [@forall_mem_widths 0, List.forall_mem_map]
  constructor
  · intro h p hp
    have := hratio.mp (h p hp).2.1
    omega
  · intro h p hp
    have hchained := chained_partsFrom 0 ws
    rw [zero_add, hsum] at hchained
    have hle : ∀ r ∈ partsFrom 0 ws, r.1 ≤ r.2 := fun r hr => by
      have := h r hr
      omega
    obtain ⟨hlow, hhigh⟩ := (hchained.bounds hle).2 p hp
    rw [← hzero, ← hone]
    exact ⟨hratio.mpr hlow, hratio.mpr (hle p hp), hratio.mpr hhigh⟩

theorem chained_ratios {ws : List ℤ} (hsum : ws.sum = 10 ^ 4) :
    Chained 0 1 ((partsFrom 0 ws).map (Prod.map toRatio toRatio)) := by
  have h := (chained_partsFrom 0 ws).map toRatio
  rw [zero_add, hsum] at h
  norm_num [toRatio] at h ⊢
  exact h

/-- The parts are one sample long exactly if their widths are. -/
theorem wide_iff {n : ℤ} (hn : 0 < n) {ws : List ℤ} :
    (∀ r ∈ (partsFrom 0 ws).map (Prod.map toRatio toRatio), 1 / (n : ℚ) ≤ r.2 - r.1) ↔
      ∀ w ∈ ws, 10 ^ 4 ≤ n * w := by
  have hcast : (0 : ℚ) < n := by exact_mod_cast hn
  rw [@forall_mem_widths 0, List.forall_mem_map]
  refine forall₂_congr fun p _ => ?_
  have hwidth : (Prod.map toRatio toRatio p).2 - (Prod.map toRatio toRatio p).1 =
      ((p.2 - p.1 : ℤ) : ℚ) / 10 ^ 4 := by
    simp only [Prod.map_fst, Prod.map_snd, toRatio]
    push_cast
    ring
  rw [hwidth, div_le_div_iff₀ hcast (by norm_num), one_mul, mul_comm]
  norm_cast

/-- The index to which a border is rounded. -/
def borderIndex (n u : ℤ) : ℤ := roundEven ((n : ℚ) * toRatio u)

/-- The ends of a part of at least one sample are rounded to one index only if it is one sample long
and begins at an odd number of samples and a half. -/
theorem borderIndex_eq_iff {n u v : ℤ} (hwidth : 10 ^ 4 ≤ n * (v - u)) :
    borderIndex n u = borderIndex n v ↔
      n * (v - u) = 10 ^ 4 ∧ ∃ m, Odd m ∧ n * u = 10 ^ 4 * m + 5000 := by
  have hpos : (10 ^ 4 : ℚ) ≠ 0 := by norm_num
  have hstep : (n : ℚ) * toRatio u + 1 ≤ n * toRatio v := by
    have hq : (10 ^ 4 : ℚ) ≤ n * (v - u) := by exact_mod_cast hwidth
    rw [toRatio, toRatio, mul_div_assoc', mul_div_assoc', div_add_one hpos,
      div_le_div_iff_of_pos_right (by norm_num)]
    linarith
  rw [borderIndex, borderIndex, roundEven_eq_roundEven_iff hstep]
  refine and_congr ?_ (exists_congr fun m => and_congr_right fun _ => ?_)
  · rw [toRatio, toRatio, mul_div_assoc', mul_div_assoc', div_add_one hpos, div_left_inj' hpos,
      ← sub_eq_iff_eq_add', ← mul_sub]
    norm_cast
  · have hhalf : ((m : ℚ) + 1 / 2) * 10 ^ 4 = 10 ^ 4 * m + 5000 := by ring
    rw [toRatio, mul_div_assoc', div_eq_iff hpos, hhalf]
    norm_cast

/-- **The index ranges partition the samples exactly if no part is one sample from an odd half.** -/
theorem partitions_iff {n : ℤ} (hn : 0 < n) {ws : List ℤ} (hsum : ws.sum = 10 ^ 4)
    (hwide : ∀ w ∈ ws, 10 ^ 4 ≤ n * w) :
    Partitions n (indexRanges ((partsFrom 0 ws).map (Prod.map toRatio toRatio)) n) ↔
      NoHalfSample n ws := by
  have hcast : (0 : ℚ) < n := by exact_mod_cast hn
  have hforward : ∀ w ∈ ws, 0 ≤ w := fun w hw => by
    have := hwide w hw
    nlinarith
  have hbounds := (bounds_iff hsum).mpr hforward
  rw [List.forall_mem_map] at hbounds
  have hranges : indexRanges ((partsFrom 0 ws).map (Prod.map toRatio toRatio)) n =
      ((partsFrom 0 ws).map (Prod.map (borderIndex n) (borderIndex n))).map (widen n) := by
    rw [indexRanges, List.map_map, List.map_map]
    refine List.map_congr_left fun p hp => ?_
    obtain ⟨h0, hle, h1⟩ := hbounds p hp
    exact getShardRange_eq {} hn h0 hle h1
  have hchained :
      Chained 0 n ((partsFrom 0 ws).map (Prod.map (borderIndex n) (borderIndex n))) := by
    have h := (chained_partsFrom 0 ws).map (borderIndex n)
    have hzero : borderIndex n 0 = 0 := by simp [borderIndex, toRatio]
    have hend : borderIndex n (10 ^ 4) = n := by
      have hone : toRatio (10 ^ 4) = 1 := by norm_num [toRatio]
      rw [borderIndex, hone, mul_one, roundEven_intCast]
    rwa [zero_add, hsum, hzero, hend] at h
  have hle : ∀ r ∈ (partsFrom 0 ws).map (Prod.map (borderIndex n) (borderIndex n)), r.1 ≤ r.2 := by
    rw [List.forall_mem_map]
    intro p hp
    exact roundEven_mul_le_mul hn.le (hbounds p hp).2.1
  rw [hranges, partitions_widen_iff hchained hle, List.forall_mem_map]
  refine forall₂_congr fun p hp => ?_
  have hwidth := (@forall_mem_widths 0 ws (10 ^ 4 ≤ n * ·)).mp hwide p hp
  -- the start of a part is rounded to an index before the end
  have hlt : borderIndex n p.1 ≠ n := by
    have hlength := (wide_iff hn).mpr hwide _ (List.mem_map_of_mem hp)
    have hend := (hbounds p hp).2.2
    have hone : (n : ℚ) * (1 / n) = 1 := mul_one_div_cancel hcast.ne'
    have hbefore : (n : ℚ) * toRatio p.1 ≤ (n - 1 : ℤ) := by
      simp only [Prod.map_fst, Prod.map_snd] at hlength hend
      push_cast
      nlinarith
    have := roundEven_le_of_le hbefore
    rw [borderIndex]
    omega
  rw [← borderIndex_eq_iff hwidth]
  exact ⟨fun h he => hlt (h he), fun h he => absurd he h⟩

/-- The rounded numbers of samples make all samples exactly if as many are rounded up as the
fractions make. -/
theorem sum_counts_iff {ws : List ℤ} (hsum : ws.sum = 10 ^ 4) (samples : ℕ) :
    ((partsFrom 0 ws).map fun p =>
        roundEven ((toRatio p.2 - toRatio p.1) * (samples : ℚ))).sum = samples ↔
      UpsFit samples ws := by
  have hcounts : (partsFrom 0 ws).map (fun p =>
      roundEven ((toRatio p.2 - toRatio p.1) * (samples : ℚ))) = ws.map fun w : ℤ =>
        (samples : ℤ) * w / 10 ^ 4 + if RoundsUp (samples * w) then 1 else 0 := by
    conv_rhs => rw [← widths_partsFrom 0 ws, List.map_map]
    refine List.map_congr_left fun p _ => ?_
    rw [Function.comp_apply, ← roundEven_div]
    congr 1
    simp only [toRatio]
    push_cast
    ring
  have hdiv : (ws.map fun w : ℤ => (samples : ℤ) * w).sum = samples * 10 ^ 4 := by
    rw [List.sum_map_mul_left, List.map_id', hsum]
  have hmod : (ws.map fun w : ℤ => (samples : ℤ) * w).sum =
      10 ^ 4 * (ws.map fun w : ℤ => (samples : ℤ) * w / 10 ^ 4).sum +
        (ws.map fun w : ℤ => (samples : ℤ) * w % (10 ^ 4 : ℤ)).sum := by
    rw [← List.sum_map_mul_left, ← List.sum_map_add]
    simp only [Int.mul_ediv_add_emod]
  have hups : (ws.map fun w : ℤ => if RoundsUp (samples * w) then (1 : ℤ) else 0).sum =
      (ws.countP fun w => RoundsUp (samples * w) : ℤ) := by
    clear hsum hcounts hdiv hmod
    induction ws with
    | nil => rfl
    | cons w ws ih =>
      rw [List.map_cons, List.sum_cons, ih, List.countP_cons]
      push_cast
      split_ifs <;> simp_all [add_comm]
  rw [hcounts, List.sum_map_add, hups, UpsFit]
  omega

theorem shardLaws_ratios_iff {workers : List (Option TrainingWorker)} {ws : List ℤ}
    (hsum : (workers.map throughputScore).sum ≠ 0)
    (h : RoundedFrom 0 (tenThousandths (workers.map throughputScore)) ws) {n : ℤ} (hn : 0 < n) :
    ShardLaws (ratios workers) n ↔
      (∀ w ∈ ws, 0 ≤ w) ∧ ((∀ w ∈ ws, 10 ^ 4 ≤ n * w) → NoHalfSample n ws) := by
  have htotal : ws.sum = 10 ^ 4 := by simpa using h.sum
  rw [ratios_eq hsum h]
  constructor
  · rintro ⟨hbounds, -, hpart⟩
    exact ⟨(bounds_iff htotal).mp hbounds, fun hwide =>
      (partitions_iff hn htotal hwide).mp (hpart ((wide_iff hn).mpr hwide))⟩
  · rintro ⟨hforward, hhalf⟩
    refine ⟨(bounds_iff htotal).mpr hforward, chained_ratios htotal, fun hwide => ?_⟩
    have hwidths := (wide_iff hn).mp hwide
    exact (partitions_iff hn htotal hwidths).mpr (hhalf hwidths)

theorem exists_roundedFrom_scores {workers : List (Option TrainingWorker)} (hne : workers ≠ []) :
    ∃ ws, RoundedFrom 0 (tenThousandths (workers.map throughputScore)) ws :=
  exists_roundedFrom 0 (by simpa [tenThousandths] using hne)

theorem sum_scores_ne_zero {workers : List (Option TrainingWorker)} (hne : workers ≠ [])
    (hpos : ∀ w ∈ workers, 0 < throughputScore w) : (workers.map throughputScore).sum ≠ 0 := by
  refine (List.sum_pos _ ?_ (by simpa using hne)).ne'
  rwa [List.forall_mem_map]

/-- **The shards of some workers obey the laws exactly if their rounded shares fit.** -/
theorem shardLaws_iff_fit {workers : List (Option TrainingWorker)} (hne : workers ≠ [])
    (hpos : ∀ w ∈ workers, 0 < throughputScore w) {n : ℤ} (hn : 0 < n) :
    ShardLaws (ratios workers) n ↔ ShardsFit (workers.map throughputScore) n := by
  have hsum := sum_scores_ne_zero hne hpos
  constructor
  · intro hlaws
    obtain ⟨ws, hws⟩ := exists_roundedFrom_scores hne
    exact ⟨ws, hws, (shardLaws_ratios_iff hsum hws hn).mp hlaws⟩
  · rintro ⟨ws, hws, hfit⟩
    exact (shardLaws_ratios_iff hsum hws hn).mpr hfit

/-- **Where the ratios are in order, the counts make all samples exactly if as many are rounded up
as the fractions make.** -/
theorem countsSum_iff {workers : List (Option TrainingWorker)} (hne : workers ≠ [])
    (hpos : ∀ w ∈ workers, 0 < throughputScore w) {n : ℤ} (hlaws : ShardLaws (ratios workers) n)
    (samples : ℕ) :
    CountsSum ((ratios workers).map fun r => roundEven ((r.2 - r.1) * (samples : ℚ))) samples ↔
      CountsFit (workers.map throughputScore) samples := by
  have hsum := sum_scores_ne_zero hne hpos
  have hnonneg : ∀ c ∈ (ratios workers).map fun r => roundEven ((r.2 - r.1) * (samples : ℚ)),
      0 ≤ c := by
    rw [List.forall_mem_map]
    intro r hr
    have hle := (hlaws.bounds r hr).2.1
    exact roundEven_nonneg (mul_nonneg (by linarith) (Nat.cast_nonneg samples))
  have hcounts : ∀ {ws}, RoundedFrom 0 (tenThousandths (workers.map throughputScore)) ws →
      (((ratios workers).map fun r => roundEven ((r.2 - r.1) * (samples : ℚ))).sum = samples ↔
        UpsFit samples ws) := fun {ws} hws => by
    rw [ratios_eq hsum hws, List.map_map]
    exact sum_counts_iff (by simpa using hws.sum) samples
  constructor
  · rintro ⟨-, htotal⟩
    obtain ⟨ws, hws⟩ := exists_roundedFrom_scores hne
    exact ⟨ws, hws, (hcounts hws).mp htotal⟩
  · rintro ⟨ws, hws, hups⟩
    exact ⟨hnonneg, (hcounts hws).mpr hups⟩

theorem forall_capableWorkers {workers : List (Option TrainingWorker)}
    (hpos : ∀ w ∈ workers, 0 < throughputScore w) :
    capableWorkers workers ≠ [] ∧ ∀ w ∈ capableWorkers workers, 0 < throughputScore w := by
  unfold capableWorkers
  dsimp only
  split_ifs with h
  · simp [throughputScore]
  · exact ⟨h, fun w hw => hpos w (List.mem_of_mem_filter hw)⟩

theorem forall_sharedAmong {workers : List (Option TrainingWorker)}
    (hpos : ∀ w ∈ workers, 0 < throughputScore w) :
    sharedAmong workers ≠ [] ∧ ∀ w ∈ sharedAmong workers, 0 < throughputScore w := by
  unfold sharedAmong
  split_ifs with h
  · simp [throughputScore]
  · exact ⟨h, hpos⟩

theorem forall_rankedWorkers {workers : List (Option TrainingWorker)} (workerCount : ℤ)
    (hpos : ∀ w ∈ workers, 0 < throughputScore w) :
    rankedWorkers workers workerCount ≠ [] ∧
      ∀ w ∈ rankedWorkers workers workerCount, 0 < throughputScore w := by
  unfold rankedWorkers
  split_ifs with h
  · constructor
    · rw [ne_eq, List.replicate_eq_nil_iff]
      omega
    · intro w hw
      rw [List.eq_of_mem_replicate hw]
      norm_num [throughputScore]
  · exact ⟨h, hpos⟩

/-- **When shards partition a data set.** The ratios of each splitting are in order, end to end, and
take every sample once, exactly if the rounded shares of its workers fit; and the counted samples
make all samples exactly if the counts fit. -/
theorem shardLaws_iff (workers : List (Option TrainingWorker)) (workerCount : ℤ)
    (totalSamples workloadLen : Option ℕ) (hpos : ∀ w ∈ workers, 0 < throughputScore w) {n : ℤ}
    (hn : 4 ≤ n) :
    (ShardLaws ((planShards workers).map fun s => (s.startRatio, s.endRatio)) n ↔
      ShardsFit ((capableWorkers workers).map throughputScore) n) ∧
    (ShardLaws ((partitionWorkload workers totalSamples workloadLen).map
          fun p => (p.startRatio, p.endRatio)) n ∧
        CountsSum ((partitionWorkload workers totalSamples workloadLen).map (·.sampleCount))
          (nSamples workers totalSamples workloadLen) ↔
      ShardsFit ((sharedAmong workers).map throughputScore) n ∧
        CountsFit ((sharedAmong workers).map throughputScore)
          (nSamples workers totalSamples workloadLen)) ∧
    (ShardLaws ((ddpSpecs workers workerCount).map fun s => (s.startRatio, s.endRatio)) n ↔
      ShardsFit ((rankedWorkers workers workerCount).map throughputScore) n) := by
  have hn' : 0 < n := by omega
  obtain ⟨hcapable, hcapablePos⟩ := forall_capableWorkers hpos
  obtain ⟨hshared, hsharedPos⟩ := forall_sharedAmong hpos
  obtain ⟨hranked, hrankedPos⟩ := forall_rankedWorkers workerCount hpos
  rw [ratios_planShards, ratios_partitionWorkload, ratios_ddpSpecs, sampleCounts_partitionWorkload]
  refine ⟨shardLaws_iff_fit hcapable hcapablePos hn', ?_, shardLaws_iff_fit hranked hrankedPos hn'⟩
  rw [← shardLaws_iff_fit hshared hsharedPos hn']
  exact and_congr_right fun hlaws => countsSum_iff hshared hsharedPos hlaws _

/-- Workers of these scores. -/
def workersOf (scores : List ℚ) : List (Option TrainingWorker) :=
  scores.map fun s => some { throughput := some s }

/-- Two equal workers take a half each of a thousand samples. -/
theorem shardLaws_pair :
    ShardLaws ((partitionWorkload (workersOf [1, 1]) (some 1000) none).map
        fun p => (p.startRatio, p.endRatio)) 4 ∧
      CountsSum ((partitionWorkload (workersOf [1, 1]) (some 1000) none).map (·.sampleCount))
        1000 := by
  have hfour : (4 : ℤ) ≤ 4 := le_rfl
  have hiff := (shardLaws_iff (workersOf [1, 1]) 1 (some 1000) none (by decide) hfour).2.1
  have hrounded : RoundedFrom 0
      (tenThousandths ((sharedAmong (workersOf [1, 1])).map throughputScore)) [5000, 5000] := by
    have hshares : tenThousandths ((sharedAmong (workersOf [1, 1])).map throughputScore) =
        [5000, 5000] := by decide +kernel
    rw [hshares]
    exact .round (.inl (by norm_num)) (.rest 5000 5000)
  refine hiff.mpr ⟨⟨_, hrounded, by decide, fun _ => ?_⟩, _, hrounded, by decide⟩
  rintro p hp ⟨-, m, hodd, heq⟩
  simp only [partsFrom, List.mem_cons, List.not_mem_nil, or_false] at hp
  rcases hp with rfl | rfl
  · omega
  · simp only at heq
    omega

/-- The ratios of the planned shards of workers of these scores. -/
def plannedRatios (scores : List ℚ) : List (ℚ × ℚ) :=
  (planShards (workersOf scores)).map fun s => (s.startRatio, s.endRatio)

/-- Three equal workers count 999 of a thousand samples. Three workers take an index twice. The
borders of four workers go beyond 1 and back. -/
theorem shards_lose_and_repeat :
    ¬CountsSum ((partitionWorkload (workersOf [1, 1, 1]) (some 1000) none).map (·.sampleCount))
        1000 ∧
      ¬ShardLaws (plannedRatios [3, 2, 3]) 4 ∧
      ¬ShardLaws (plannedRatios [33326, 33336, 33336, 2]) 4 := by
  refine ⟨fun h => ?_, fun h => ?_, fun h => ?_⟩
  · have hcounts : (partitionWorkload (workersOf [1, 1, 1]) (some 1000) none).map (·.sampleCount) =
        [333, 333, 333] := by decide +kernel
    have hsum := h.sum
    rw [hcounts] at hsum
    exact absurd hsum (by decide)
  · have hratios : plannedRatios [3, 2, 3] = [(0, 3 / 8), (3 / 8, 5 / 8), (5 / 8, 1)] := by
      decide +kernel
    have hranges : indexRanges [((0 : ℚ), (3 / 8 : ℚ)), (3 / 8, 5 / 8), (5 / 8, 1)] 4 =
        [(0, 2), (2, 3), (2, 4)] := by decide +kernel
    have hpart := h.partitions
    rw [hratios, hranges] at hpart
    have hdisjoint := (hpart (by norm_num)).disjoint
    have htwice := (List.pairwise_cons.mp (List.pairwise_cons.mp hdisjoint).2).1 (2, 4) (by simp)
    exact htwice 2 (by decide) (by decide)
  · have hmem : ((6667 / 10000 : ℚ), (10001 / 10000 : ℚ)) ∈
        plannedRatios [33326, 33336, 33336, 2] := by decide +kernel
    have hle := (h.bounds _ hmem).2.2
    norm_num at hle

end Aidars.Training
