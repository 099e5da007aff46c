import Aidars.Foundations.Ranges
import Aidars.Foundations.Rounding
import Mathlib.Algebra.BigOperators.Ring.List
import Mathlib.Algebra.Order.BigOperators.Group.List
import Mathlib.Data.Rat.Floor
import Mathlib.Data.Int.ConditionallyCompleteOrder

/-!
# The sampler of a process group

`PowerWeightedDistributedSampler` gives each process of a group its part of the indices of a data
set, after a shuffle that is the same for all, in proportion to its throughput score. What it yields
is `iter`, what it says of its length `len`.

The ranges of the processes lie end to end between rounded borders (`chained_borders`), so that the
indices are covered and disjoint; what `len` counts for the last processes they need not have.
`samplerLaws_iff` says when they have it.
-/

namespace Aidars.Training

/-- A source of shuffles, which depend on a seed only. -/
structure Shuffler where
  shuffle : ℤ → List ℕ → List ℕ
  perm : ∀ seed indices, (shuffle seed indices).Perm indices

/-- The sampler of one process. -/
structure PowerWeightedDistributedSampler where
  datasetLen : ℕ
  rank : ℕ
  shares : List ℚ
  shuffle : Bool
  seed : ℤ
  epoch : ℤ := 0

/-- The scores of a group, no less than a tenth, and 1 for a process without a score. -/
def groupScores (worldSize : ℕ) (throughputScores : List ℚ) : List ℚ :=
  let scores := throughputScores.map (max (1 / 10))
  let scores :=
    if scores.length < worldSize then scores ++ List.replicate (worldSize - scores.length) 1
    else scores
  scores.take worldSize

namespace PowerWeightedDistributedSampler

/-- The sampler of a process, with the shares of its group. -/
def init (datasetLen rank worldSize : ℕ) (throughputScores : List ℚ) (shuffle : Bool) (seed : ℤ) :
    PowerWeightedDistributedSampler where
  datasetLen := datasetLen
  rank := rank
  shares :=
    let scores := groupScores worldSize throughputScores
    let totalScore := if scores.sum = 0 then (worldSize : ℚ) else scores.sum
    scores.map (· / totalScore)
  shuffle := shuffle
  seed := seed

/-- Begin another epoch. -/
def setEpoch (self : PowerWeightedDistributedSampler) (epoch : ℤ) :
    PowerWeightedDistributedSampler := { self with epoch := epoch }

/-- The rounded border before the process of a rank. -/
def border (self : PowerWeightedDistributedSampler) (rank : ℕ) : ℤ :=
  roundEven ((self.datasetLen : ℚ) * (self.shares.take rank).sum)

/-- The positions that a process takes of the shuffled indices. -/
def positions (self : PowerWeightedDistributedSampler) : ℤ × ℤ :=
  let n : ℤ := self.datasetLen
  let startIdx := self.border self.rank
  let endIdx := self.border (self.rank + 1)
  let startIdx := max 0 (min n startIdx)
  let endIdx := max startIdx (min n endIdx)
  let endIdx := if endIdx = startIdx ∧ 0 < n then min n (startIdx + 1) else endIdx
  (startIdx, endIdx)

/-- The indices in the order of this epoch. -/
def indices (g : Shuffler) (self : PowerWeightedDistributedSampler) : List ℕ :=
  if self.shuffle then g.shuffle (self.seed + self.epoch) (List.range self.datasetLen)
  else List.range self.datasetLen

/-- The indices that a process gets. -/
def iter (g : Shuffler) (self : PowerWeightedDistributedSampler) : List ℕ :=
  slice (self.indices g) self.positions

/-- The number of indices that a process says it gets. -/
def len (self : PowerWeightedDistributedSampler) : ℤ :=
  let startIdx := self.border self.rank
  let endIdx := self.border (self.rank + 1)
  max (if 0 < self.datasetLen then 1 else 0) (endIdx - startIdx)

end PowerWeightedDistributedSampler

open PowerWeightedDistributedSampler

/-! ## A group -/

/-- The samplers of a group, in the same epoch. -/
structure SamplerGroup where
  datasetLen : ℕ
  worldSize : ℕ
  throughputScores : List ℚ
  shuffle : Bool
  seed : ℤ
  epoch : ℤ

namespace SamplerGroup

/-- The sampler of a rank. -/
def sampler (group : SamplerGroup) (rank : ℕ) : PowerWeightedDistributedSampler :=
  (init group.datasetLen rank group.worldSize group.throughputScores group.shuffle
    group.seed).setEpoch group.epoch

/-- The scores that the group goes by. -/
def scores (group : SamplerGroup) : List ℚ := groupScores group.worldSize group.throughputScores

/-- The rounded border before a rank. -/
def border (group : SamplerGroup) (rank : ℕ) : ℤ := (group.sampler rank).border rank

/-- Every index is in the part of some process; if the part of each rounds to an index or more, no
index is in two; and each process says how many indices it gets. -/
structure SamplerLaws (g : Shuffler) (group : SamplerGroup) : Prop where
  cover : ∀ i < group.datasetLen, ∃ rank < group.worldSize, i ∈ (group.sampler rank).iter g
  disjoint : (∀ rank < group.worldSize, group.border rank + 1 ≤ group.border (rank + 1)) →
    ∀ rank < group.worldSize, ∀ rank' < group.worldSize, rank ≠ rank' →
      List.Disjoint ((group.sampler rank).iter g) ((group.sampler rank').iter g)
  len : ∀ rank < group.worldSize,
    (group.sampler rank).len = ((group.sampler rank).iter g).length

/-- The score of the last process makes more than half an index, or half of one and the indices are
odd in number. -/
def LastSampled (n : ℕ) (scores : List ℚ) : Prop :=
  ∃ s ∈ scores.getLast?, scores.sum < 2 * n * s ∨ scores.sum = 2 * n * s ∧ Odd n

/-! ## The scores -/

variable (group : SamplerGroup)

theorem length_scores : group.scores.length = group.worldSize := by
  unfold scores groupScores
  dsimp only
  split_ifs with h
  · rw [List.length_take, List.length_append, List.length_replicate]
    omega
  · rw [List.length_take]
    omega

theorem pos_of_mem_scores {s : ℚ} (h : s ∈ group.scores) : 0 < s := by
  have hmap : ∀ s ∈ group.throughputScores.map (max (1 / 10)), 0 < s := by
    rw [List.forall_mem_map]
    intro s _
    exact lt_of_lt_of_le (by norm_num) (le_max_left _ _)
  have hmem := List.mem_of_mem_take h
  split_ifs at hmem with hlt
  · rcases List.mem_append.mp hmem with hs | hs
    · exact hmap s hs
    · rw [List.eq_of_mem_replicate hs]
      norm_num
  · exact hmap s hmem

theorem sum_scores_pos (h : 0 < group.worldSize) : 0 < group.scores.sum := by
  refine List.sum_pos _ (fun s hs => group.pos_of_mem_scores hs) ?_
  rw [← List.length_pos_iff, length_scores]
  exact h

theorem border_eq (rank : ℕ) (h : 0 < group.worldSize) :
    group.border rank =
      roundEven ((group.datasetLen : ℚ) * ((group.scores.take rank).sum / group.scores.sum)) := by
  have hne := (group.sum_scores_pos h).ne'
  unfold border PowerWeightedDistributedSampler.border sampler setEpoch init
  dsimp only
  rw [show groupScores group.worldSize group.throughputScores = group.scores from rfl, if_neg hne,
    ← List.map_take]
  simp only [div_eq_mul_inv, List.sum_map_mul_right, List.map_id']

/-! ## The borders -/

theorem border_zero : group.border 0 = 0 := by
  simp [border, PowerWeightedDistributedSampler.border]

theorem border_worldSize (h : 0 < group.worldSize) :
    group.border group.worldSize = group.datasetLen := by
  rw [group.border_eq _ h, List.take_of_length_le (group.length_scores).le,
    div_self (group.sum_scores_pos h).ne', mul_one, roundEven_natCast]

theorem border_mono (h : 0 < group.worldSize) : Monotone group.border := by
  refine monotone_nat_of_le_succ fun rank => ?_
  rw [group.border_eq _ h, group.border_eq _ h]
  have hsum : (group.scores.take rank).sum ≤ (group.scores.take (rank + 1)).sum := by
    refine (List.take_prefix_take_left (Nat.le_succ rank)).sublist.sum_le_sum fun s hs => ?_
    exact (group.pos_of_mem_scores (List.mem_of_mem_take hs)).le
  have hpos := (group.sum_scores_pos h).le
  exact roundEven_mono (by gcongr)

/-- The ranges between the borders lie end to end. -/
theorem chained_borders (h : 0 < group.worldSize) :
    Chained 0 (group.datasetLen : ℤ)
      ((List.range group.worldSize).map fun k => (group.border k, group.border (k + 1))) := by
  have hchained := Chained.of_borders group.border group.worldSize
  rwa [border_zero, group.border_worldSize h] at hchained

/-! ## What the processes get -/

variable {group} {g : Shuffler} {rank : ℕ}

theorem border_bounds (h : 0 < group.worldSize) (hrank : rank ≤ group.worldSize) :
    0 ≤ group.border rank ∧ group.border rank ≤ group.datasetLen := by
  have hlow := group.border_mono h (Nat.zero_le rank)
  have hhigh := group.border_mono h hrank
  rw [border_zero] at hlow
  rw [group.border_worldSize h] at hhigh
  exact ⟨hlow, hhigh⟩

theorem positions_eq (hrank : rank < group.worldSize) :
    (group.sampler rank).positions =
      widen group.datasetLen (group.border rank, group.border (rank + 1)) := by
  have h : 0 < group.worldSize := by omega
  have hstart := border_bounds h hrank.le
  have hend := border_bounds h (show rank + 1 ≤ group.worldSize from hrank)
  have hmono := group.border_mono h (Nat.le_add_right rank 1)
  have hstartIdx : max 0 (min (group.datasetLen : ℤ) (group.border rank)) = group.border rank := by
    omega
  have hendIdx : max (group.border rank)
      (min (group.datasetLen : ℤ) (group.border (rank + 1))) = group.border (rank + 1) := by
    omega
  have hpositions : (group.sampler rank).positions =
      (max 0 (min (group.datasetLen : ℤ) (group.border rank)),
        if max (max 0 (min (group.datasetLen : ℤ) (group.border rank)))
              (min (group.datasetLen : ℤ) (group.border (rank + 1))) =
            max 0 (min (group.datasetLen : ℤ) (group.border rank)) ∧
            0 < (group.datasetLen : ℤ) then
          min (group.datasetLen : ℤ) (max 0 (min (group.datasetLen : ℤ) (group.border rank)) + 1)
        else max (max 0 (min (group.datasetLen : ℤ) (group.border rank)))
          (min (group.datasetLen : ℤ) (group.border (rank + 1)))) := rfl
  rw [hstartIdx, hendIdx] at hpositions
  rw [hpositions, widen]
  dsimp only
  split_ifs with h1 h2 h2
  · rfl
  · exact absurd h1.1 h2
  · exact Prod.ext rfl (by dsimp only; omega)
  · rfl

theorem perm_indices (g : Shuffler) (group : SamplerGroup) (rank : ℕ) :
    ((group.sampler rank).indices g).Perm (List.range group.datasetLen) := by
  unfold indices
  split_ifs
  · exact g.perm _ _
  · exact List.Perm.refl _

theorem mem_iter (hrank : rank < group.worldSize) {i : ℕ} :
    i ∈ (group.sampler rank).iter g ↔ ∃ j : ℕ,
      InRange (widen group.datasetLen (group.border rank, group.border (rank + 1))) j ∧
        ((group.sampler 0).indices g)[j]? = some i := by
  have hstart := border_bounds (by omega) hrank.le
  have hnonneg : 0 ≤ (group.sampler rank).positions.1 := by
    rw [positions_eq hrank]
    unfold widen
    split_ifs <;> exact hstart.1
  rw [iter, mem_slice hnonneg, positions_eq hrank]
  rfl

/-- **Every index is in the part of some process.** -/
theorem cover_iter (h : 0 < group.worldSize) {i : ℕ} (hi : i < group.datasetLen) :
    ∃ rank < group.worldSize, i ∈ (group.sampler rank).iter g := by
  have hmem : i ∈ (group.sampler 0).indices g :=
    (perm_indices g group 0).mem_iff.mpr (List.mem_range.mpr hi)
  obtain ⟨j, hj⟩ := List.mem_iff_getElem?.mp hmem
  have hlen : j < group.datasetLen := by
    have hlt := (List.getElem?_eq_some_iff.mp hj).1
    rwa [(perm_indices g group 0).length_eq, List.length_range] at hlt
  have hle : ∀ r ∈ (List.range group.worldSize).map
      fun k => (group.border k, group.border (k + 1)), r.1 ≤ r.2 := by
    rw [List.forall_mem_map]
    exact fun k _ => group.border_mono h (Nat.le_succ k)
  obtain ⟨_, hmem, hin⟩ := ((group.chained_borders h).cover_widen hle).mpr
    ⟨Int.natCast_nonneg j, Int.ofNat_lt.mpr hlen⟩
  obtain ⟨_, hr, rfl⟩ := List.mem_map.mp hmem
  obtain ⟨rank, hrank, rfl⟩ := List.mem_map.mp hr
  exact ⟨rank, List.mem_range.mp hrank, (mem_iter (List.mem_range.mp hrank)).mpr ⟨j, hin, hj⟩⟩

theorem disjoint_iter_of_lt
    (hmany : ∀ rank < group.worldSize, group.border rank + 1 ≤ group.border (rank + 1))
    {rank rank' : ℕ} (hlt : rank < rank') (hrank' : rank' < group.worldSize) :
    List.Disjoint ((group.sampler rank).iter g) ((group.sampler rank').iter g) := by
  intro i hi hi'
  have hrank : rank < group.worldSize := by omega
  obtain ⟨j, hj, hget⟩ := (mem_iter hrank).mp hi
  obtain ⟨j', hj', hget'⟩ := (mem_iter hrank').mp hi'
  have hsame : j = j' := by
    have hnodup : ((group.sampler 0).indices g).Nodup :=
      (perm_indices g group 0).nodup_iff.mpr List.nodup_range
    have hj := (List.getElem?_eq_some_iff.mp hget).1
    exact (List.getElem?_inj hj hnodup).mp (hget.trans hget'.symm)
  have hborder := group.border_mono (by omega) (show rank + 1 ≤ rank' from hlt)
  have hone := hmany rank hrank
  have hone' := hmany rank' hrank'
  rw [widen, if_neg (by dsimp only; omega)] at hj hj'
  unfold InRange at hj hj'
  simp only at hj hj'
  omega

/-- **No index is in the parts of two processes**, if the part of each rounds to an index or
more. -/
theorem disjoint_iter
    (hmany : ∀ rank < group.worldSize, group.border rank + 1 ≤ group.border (rank + 1))
    {rank rank' : ℕ} (hrank : rank < group.worldSize) (hrank' : rank' < group.worldSize)
    (hne : rank ≠ rank') :
    List.Disjoint ((group.sampler rank).iter g) ((group.sampler rank').iter g) := by
  rcases Nat.lt_or_gt_of_ne hne with hlt | hgt
  · exact disjoint_iter_of_lt hmany hlt hrank'
  · exact (disjoint_iter_of_lt hmany hgt hrank).symm

/-- A process says how many indices it gets, exactly if its start is not rounded to the end. -/
theorem len_eq_iff (hrank : rank < group.worldSize) :
    (group.sampler rank).len = ((group.sampler rank).iter g).length ↔
      group.datasetLen = 0 ∨ group.border rank < group.datasetLen := by
  have h : 0 < group.worldSize := by omega
  have hstart := border_bounds h hrank.le
  have hend := border_bounds h (show rank + 1 ≤ group.worldSize from hrank)
  have hmono := group.border_mono h (Nat.le_add_right rank 1)
  have hindices : ((group.sampler rank).indices g).length = group.datasetLen := by
    rw [(perm_indices g group rank).length_eq, List.length_range]
  have hlen : (group.sampler rank).len =
      max (if 0 < group.datasetLen then 1 else 0) (group.border (rank + 1) - group.border rank) :=
    rfl
  rw [iter, positions_eq hrank, hlen]
  unfold widen
  split_ifs with hpos hempty hempty
  all_goals
    rw [length_slice (by dsimp only; omega) (by rw [hindices]; dsimp only; omega)]
    dsimp only at *
    omega

/-- The start of the last process is not rounded to the end exactly if its score makes half an
index. -/
theorem border_last_lt_iff (h : 0 < group.worldSize) (hn : 0 < group.datasetLen) :
    group.border (group.worldSize - 1) < group.datasetLen ↔
      LastSampled group.datasetLen group.scores := by
  have hsum := group.sum_scores_pos h
  have hne : group.scores ≠ [] := by
    rw [← List.length_pos_iff, length_scores]
    exact h
  obtain ⟨front, last, heq⟩ : ∃ front last, group.scores = front ++ [last] :=
    ⟨_, _, (List.dropLast_append_getLast hne).symm⟩
  have hlen : group.worldSize - 1 = front.length := by
    rw [← group.length_scores, heq, List.length_append, List.length_singleton]
    omega
  have hcast : (0 : ℚ) < group.datasetLen := by exact_mod_cast hn
  have htotal : group.scores.sum = front.sum + last := by
    rw [heq, List.sum_append, List.sum_singleton]
  rw [group.border_eq _ h, hlen, roundEven_lt_iff, LastSampled]
  have htake : (group.scores.take front.length).sum = group.scores.sum - last := by
    rw [heq, List.take_left, ← heq, htotal, add_sub_cancel_right]
  have hlast : group.scores.getLast? = some last := by rw [heq, List.getLast?_concat]
  have hpart : (group.datasetLen : ℚ) * ((group.scores.sum - last) / group.scores.sum) =
      group.datasetLen - group.datasetLen * last / group.scores.sum := by
    field_simp
  have hhalf : ∀ x : ℚ, group.datasetLen - x + 1 / 2 < (group.datasetLen : ℤ) ↔ 1 / 2 < x := by
    intro x
    push_cast
    constructor <;> intro h <;> linarith
  have hhalf' : ∀ x : ℚ, group.datasetLen - x + 1 / 2 = (group.datasetLen : ℤ) ↔ 1 / 2 = x := by
    intro x
    push_cast
    constructor <;> intro h <;> linarith
  simp only [htake, hpart, hhalf, hhalf', hlast, Option.mem_some_iff, exists_eq_left',
    lt_div_iff₀ hsum, eq_div_iff hsum.ne', Int.odd_coe_nat]
  refine or_congr ?_ (and_congr_left' ?_)
  · constructor <;> intro h <;> linarith
  · constructor <;> intro h <;> linarith

/-- **When a group of samplers obeys its laws.** Exactly if there is nothing to sample, or the score
of the last process makes half an index. -/
theorem samplerLaws_iff (g : Shuffler) (group : SamplerGroup) :
    SamplerLaws g group ↔
      group.datasetLen = 0 ∨ 0 < group.worldSize ∧ LastSampled group.datasetLen group.scores := by
  have hdisjoint : (∀ rank < group.worldSize, group.border rank + 1 ≤ group.border (rank + 1)) →
      ∀ rank < group.worldSize, ∀ rank' < group.worldSize, rank ≠ rank' →
        List.Disjoint ((group.sampler rank).iter g) ((group.sampler rank').iter g) :=
    fun hmany _ hrank _ hrank' hne => disjoint_iter hmany hrank hrank' hne
  rcases Nat.eq_zero_or_pos group.datasetLen with hn | hn
  · refine iff_of_true ⟨fun i hi => ?_, hdisjoint, fun rank hrank => ?_⟩ (.inl hn)
    · omega
    · exact (len_eq_iff hrank).mpr (.inl hn)
  · constructor
    · intro hlaws
      obtain ⟨rank, hrank, -⟩ := hlaws.cover 0 hn
      have h : 0 < group.worldSize := by omega
      have hlast := (len_eq_iff (by omega)).mp (hlaws.len (group.worldSize - 1) (by omega))
      exact .inr ⟨h, (border_last_lt_iff h hn).mp (hlast.resolve_left hn.ne')⟩
    · rintro (hzero | ⟨h, hlast⟩)
      · omega
      · refine ⟨fun i hi => cover_iter h hi, hdisjoint, fun rank hrank => ?_⟩
        have hmono := group.border_mono h (show rank ≤ group.worldSize - 1 by omega)
        exact (len_eq_iff hrank).mpr
          (.inr (lt_of_le_of_lt hmono ((border_last_lt_iff h hn).mpr hlast)))

/-- No shuffle at all. -/
def inOrder : Shuffler := ⟨fun _ indices => indices, fun _ _ => List.Perm.refl _⟩

/-- A group of two processes of which the first is three times as fast, for one index. -/
def pairOfOne : SamplerGroup where
  datasetLen := 1
  worldSize := 2
  throughputScores := [3, 1]
  shuffle := true
  seed := 0
  epoch := 0

/-- The second process gets no index and says that it gets one. -/
theorem not_samplerLaws_pairOfOne : ¬SamplerLaws inOrder pairOfOne := by
  intro h
  have hlen := h.len 1 (by decide)
  have hone : (pairOfOne.sampler 1).len = 1 := by decide +kernel
  have hnone : (pairOfOne.sampler 1).iter inOrder = [] := by decide +kernel
  rw [hone, hnone] at hlen
  exact absurd hlen (by decide)

end SamplerGroup

end Aidars.Training
