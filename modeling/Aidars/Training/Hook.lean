import Aidars.Foundations.Ranges
import Aidars.Foundations.Rounding
import Mathlib.Data.Rat.Floor

/-!
# The shard of a worker

A training script runs unchanged: a hook, put before it, gives its data loaders the part of the data
set between two ratios, which the environment of the worker holds. The rule that makes indices of
the ratios is written three times: `getShardRange` for any data, `patchedInit` for a data loader,
and `hookedInit`, which is in the text of the hook for workers without the package.

`allAgree_iff` says for which ratios the three are one rule.
-/

namespace Aidars.Training

/-- What the environment holds for a ratio: nothing, a text that is no number, or a number. -/
inductive EnvValue
  | unset
  | malformed
  | ratio (q : ℚ)
  deriving DecidableEq

/-- The number in the environment, or the default. -/
def EnvValue.float (default : ℚ) : EnvValue → Option ℚ
  | unset => some default
  | malformed => none
  | ratio q => some q

/-- The ratios in the environment of a worker. -/
structure ShardEnv where
  startRatio : EnvValue := .unset
  endRatio : EnvValue := .unset

/-- The indices between two ratios, of any data. -/
def getShardRange (env : ShardEnv) (totalCount : ℤ) (startRatio endRatio : Option ℚ) : ℤ × ℤ :=
  let startRatio := startRatio.getD ((env.startRatio.float 0).getD 0)
  let endRatio := endRatio.getD ((env.endRatio.float 1).getD 1)
  if totalCount ≤ 0 then (0, 0)
  else
    let iStart := roundEven (totalCount * startRatio)
    let iEnd := roundEven (totalCount * endRatio)
    let iStart := max 0 (min totalCount iStart)
    let iEnd := max iStart (min totalCount iEnd)
    let iEnd := if iEnd = iStart ∧ 0 < totalCount then min totalCount (iStart + 1) else iEnd
    (iStart, iEnd)

/-- The part of some data between the ratios of the environment. -/
def shardDataset {β : Type*} (env : ShardEnv) (data : List β) : List β :=
  if data.length < 4 then data
  else slice data (getShardRange env data.length none none)

/-- Both ratios of the environment, or all of the data if one of them is no number. -/
def ShardEnv.ratios (env : ShardEnv) : ℚ × ℚ :=
  match env.startRatio.float 0, env.endRatio.float 1 with
  | some startRatio, some endRatio => (startRatio, endRatio)
  | _, _ => (0, 1)

/-- The indices that a patched data loader takes of a data set with so many samples. -/
def patchedInit (env : ShardEnv) (totalLen : ℤ) : ℤ × ℤ :=
  let (startRatio, endRatio) := env.ratios
  if (0 < startRatio ∨ endRatio < 1) ∧ 4 ≤ totalLen then
    let iStart := roundEven (totalLen * startRatio)
    let iEnd := roundEven (totalLen * endRatio)
    let iStart := max 0 (min (totalLen - 1) iStart)
    let iEnd := max (iStart + 1) (min totalLen iEnd)
    (iStart, iEnd)
  else (0, totalLen)

/-- The same in the text of the hook. -/
def hookedInit (env : ShardEnv) (tl : ℤ) : ℤ × ℤ :=
  let (sr, er) := env.ratios
  if (0 < sr ∨ er < 1) ∧ 4 ≤ tl then
    let s := max 0 (min (tl - 1) (roundEven (tl * sr)))
    let e := max (s + 1) (min tl (roundEven (tl * er)))
    (s, e)
  else (0, tl)

/-! ## The three rules -/

/-- An environment with two ratios. -/
def envOf (startRatio endRatio : ℚ) : ShardEnv := ⟨.ratio startRatio, .ratio endRatio⟩

/-- The three rules take the same indices of `n` samples. -/
structure AllAgree (n : ℤ) (startRatio endRatio : ℚ) : Prop where
  hooked : hookedInit (envOf startRatio endRatio) n = patchedInit (envOf startRatio endRatio) n
  range : getShardRange (envOf startRatio endRatio) n none none =
    patchedInit (envOf startRatio endRatio) n

variable {n : ℤ} {startRatio endRatio : ℚ}

/-- The text of the hook says what the package does. -/
theorem hookedInit_eq_patchedInit (env : ShardEnv) (n : ℤ) : hookedInit env n = patchedInit env n :=
  rfl

theorem roundEven_mul_le (hn : 0 ≤ n) {q : ℚ} (hq : q ≤ 1) : roundEven (n * q) ≤ n := by
  have hcast : (0 : ℚ) ≤ n := by exact_mod_cast hn
  exact roundEven_le_of_le (mul_le_of_le_one_right hcast hq)

theorem roundEven_mul_nonneg (hn : 0 ≤ n) {q : ℚ} (hq : 0 ≤ q) : 0 ≤ roundEven (n * q) :=
  roundEven_nonneg (mul_nonneg (by exact_mod_cast hn) hq)

theorem roundEven_mul_le_mul (hn : 0 ≤ n) {p q : ℚ} (h : p ≤ q) :
    roundEven (n * p) ≤ roundEven (n * q) :=
  roundEven_mono (mul_le_mul_of_nonneg_left h (by exact_mod_cast hn))

/-- Between ratios in order, the range is from the one rounded index to the other, or one index. -/
theorem getShardRange_eq (env : ShardEnv) (hn : 0 < n) (h0 : 0 ≤ startRatio)
    (hle : startRatio ≤ endRatio) (h1 : endRatio ≤ 1) :
    getShardRange env n (some startRatio) (some endRatio) =
      if roundEven (n * endRatio) = roundEven (n * startRatio) then
        (roundEven (n * startRatio), min n (roundEven (n * startRatio) + 1))
      else (roundEven (n * startRatio), roundEven (n * endRatio)) := by
  have hstart := roundEven_mul_nonneg hn.le h0
  have hend := roundEven_mul_le hn.le h1
  have hmono := roundEven_mul_le_mul hn.le hle
  simp only [getShardRange, Option.getD_some]
  rw [if_neg (by omega), min_eq_right (by omega), max_eq_right hstart, min_eq_right hend,
    max_eq_right hmono]
  split_ifs with h h' h'
  · rfl
  · exact absurd h.1 h'
  · exact absurd ⟨h', hn⟩ h
  · rfl

theorem getShardRange_envOf : getShardRange (envOf startRatio endRatio) n none none =
    getShardRange (envOf startRatio endRatio) n (some startRatio) (some endRatio) := rfl

/-- The range of a data loader: at least one index, and none beyond the last. -/
theorem patchedInit_eq (hn : 4 ≤ n) (h0 : 0 ≤ startRatio) (h1 : endRatio ≤ 1) :
    patchedInit (envOf startRatio endRatio) n =
      (min (n - 1) (roundEven (n * startRatio)),
        max (min (n - 1) (roundEven (n * startRatio)) + 1) (roundEven (n * endRatio))) := by
  have hstart := roundEven_mul_nonneg (by omega : 0 ≤ n) h0
  have hend := roundEven_mul_le (by omega : 0 ≤ n) h1
  have hratios : (envOf startRatio endRatio).ratios = (startRatio, endRatio) := rfl
  rw [patchedInit, hratios]
  by_cases h : (0 < startRatio ∨ endRatio < 1) ∧ 4 ≤ n
  · have hmin : 0 ≤ min (n - 1) (roundEven (n * startRatio)) := by omega
    simp only [if_pos h, max_eq_right hmin, min_eq_right hend]
  · -- the ratios are 0 and 1, which the rule takes to the whole data set
    have hzero : startRatio = 0 :=
      le_antisymm (by_contra fun hlt => h ⟨.inl (not_le.mp hlt), hn⟩) h0
    have hone : endRatio = 1 := le_antisymm h1 (by_contra fun hlt => h ⟨.inr (not_le.mp hlt), hn⟩)
    simp only [if_neg h]
    rw [hzero, hone, mul_zero, mul_one, roundEven_zero, roundEven_intCast]
    ext
    · simp only
      omega
    · simp only
      omega

/-- **The three rules agree exactly if the start is not rounded to the end of the data set.** -/
theorem allAgree_iff (hn : 4 ≤ n) (h0 : 0 ≤ startRatio) (hle : startRatio ≤ endRatio)
    (h1 : endRatio ≤ 1) :
    AllAgree n startRatio endRatio ↔
      n * startRatio + 1 / 2 < n ∨ n * startRatio + 1 / 2 = n ∧ Odd n := by
  have hstart := roundEven_mul_nonneg (by omega : 0 ≤ n) h0
  have hend := roundEven_mul_le (by omega : 0 ≤ n) h1
  have hmono := roundEven_mul_le_mul (by omega : 0 ≤ n) hle
  have hrange := getShardRange_eq (envOf startRatio endRatio) (by omega : 0 < n) h0 hle h1
  rw [← getShardRange_envOf] at hrange
  rw [← roundEven_lt_iff]
  constructor
  · rintro ⟨-, hagree⟩
    rw [hrange, patchedInit_eq hn h0 h1] at hagree
    split_ifs at hagree with h
    all_goals
      have hfst := congrArg Prod.fst hagree
      simp only at hfst
      omega
  · intro hlt
    refine ⟨hookedInit_eq_patchedInit _ n, ?_⟩
    rw [hrange, patchedInit_eq hn h0 h1]
    split_ifs with h
    all_goals
      ext
      · simp only
        omega
      · simp only
        omega

theorem allAgree_half : AllAgree 5 (9 / 10) 1 :=
  (allAgree_iff (by decide) (by norm_num) (by norm_num) (by norm_num)).mpr
    (.inr ⟨by norm_num, by decide⟩)

/-- Of four samples, a start at nine tenths leaves a data loader one sample and other data none. -/
theorem not_allAgree_last : ¬AllAgree 4 (9 / 10) 1 := by
  rintro ⟨-, h⟩
  have hrange : getShardRange (envOf (9 / 10) 1) 4 none none = (4, 4) := by decide +kernel
  have hloader : patchedInit (envOf (9 / 10) 1) 4 = (3, 4) := by decide +kernel
  rw [hrange, hloader] at h
  exact absurd h (by decide)

end Aidars.Training
