import Aidars.Foundations.Ranking
import Aidars.Foundations.Spans

/-!
# Frame coverage

`computeFrameCoverage` tells from the frame ranges of the chunks of a job which of its frames no
completed chunk has rendered, and which more than one has. The ranges are sorted, merged in one pass
that notes the overlaps (`mergeRanges`), and the frames between them are found by a cursor
(`missingRanges`).
-/

namespace Aidars.Frames

open Aidars.Span

/-- A chunk of a job: its frames, and whether it is completed. -/
structure ChunkCoverage where
  workloadId : String
  frameStart : ℤ
  frameEnd : ℤ
  isComplete : Bool
  deriving DecidableEq

/-- What is known of the frames of a job. -/
structure FrameCoverageReport where
  jobFrameStart : ℤ
  jobFrameEnd : ℤ
  missingRanges : List Span := []
  overlappingRanges : List Span := []
  incompleteChunkWorkloadIds : List String := []
  deriving DecidableEq

/-- No frame is missing and no chunk is incomplete. -/
def FrameCoverageReport.isComplete (report : FrameCoverageReport) : Bool :=
  report.missingRanges.isEmpty && report.incompleteChunkWorkloadIds.isEmpty

/-- The frames of a chunk. -/
def ChunkCoverage.span (c : ChunkCoverage) : Span := (c.frameStart, c.frameEnd)

/-! ## Merging -/

/-- The ranges merged so far, and the overlaps found. -/
structure Sweep where
  merged : List Span := []
  overlaps : List Span := []

/-- Merge a range into the last one if it touches it. -/
def Sweep.add (s : Sweep) (r : Span) : Sweep :=
  match s.merged.getLast? with
  | some last =>
    if r.1 ≤ last.2 + 1 then
      { merged := s.merged.dropLast ++ [(last.1, max last.2 r.2)]
        overlaps := if r.1 ≤ last.2 then s.overlaps ++ [(r.1, min r.2 last.2)] else s.overlaps }
    else { s with merged := s.merged ++ [r] }
  | none => { s with merged := s.merged ++ [r] }

/-- Merge sorted ranges. -/
def mergeRanges (l : List Span) : Sweep := l.foldl Sweep.add {}

variable {s : Sweep} {seen l merged missing : List Span} {r last : Span} {f a b : ℤ}

theorem Sweep.add_gap (h : ∀ last, s.merged.getLast? = some last → last.2 + 1 < r.1) :
    s.add r = { s with merged := s.merged ++ [r] } := by
  unfold Sweep.add
  cases hlast : s.merged.getLast? with
  | none => rfl
  | some last => exact if_neg (by have := h last hlast; omega)

theorem Sweep.add_join (hlast : s.merged.getLast? = some last) (h : r.1 ≤ last.2 + 1) :
    s.add r = { merged := s.merged.dropLast ++ [(last.1, max last.2 r.2)]
                overlaps := if r.1 ≤ last.2 then s.overlaps ++ [(r.1, min r.2 last.2)]
                  else s.overlaps } := by
  unfold Sweep.add
  rw [hlast]
  exact if_pos h

/-- What the sweep has found of the ranges that it has seen. -/
structure Sweep.Holds (s : Sweep) (seen : List Span) : Prop where
  apart : Apart s.merged
  covers : ∀ f, Covers s.merged f ↔ Covers seen f
  starts : ∀ r ∈ s.merged, ∃ q ∈ seen, q.1 = r.1
  overlaps_nonempty : ∀ r ∈ s.overlaps, r.1 ≤ r.2
  overlaps : ∀ f, Covers s.overlaps f ↔ 2 ≤ depth seen f

/-- A frame of the next range lies in a merged range iff it does not lie beyond the last one. -/
theorem Sweep.Holds.covers_of_contains {init : List Span} (h : s.Holds seen)
    (hm : s.merged = init ++ [last]) (hstart : ∀ q ∈ seen, q.1 ≤ r.1) (hf : r.1 ≤ f) :
    Covers seen f ↔ f ≤ last.2 := by
  obtain ⟨-, hbefore⟩ := (hm ▸ h.apart).before_last
  obtain ⟨q, hq, hlow⟩ := h.starts last (by simp [hm])
  have hle := hstart q hq
  rw [← h.covers, hm, covers_append, covers_cons]
  constructor
  · rintro (⟨t, ht, -, hhigh⟩ | ⟨-, hhigh⟩ | hnone)
    · have := hbefore t ht
      omega
    · exact hhigh
    · exact absurd hnone covers_nil
  · exact fun hhigh => .inr (.inl ⟨by omega, hhigh⟩)

theorem two_le_depth_concat :
    2 ≤ depth (seen ++ [r]) f ↔ 2 ≤ depth seen f ∨ r.Contains f ∧ Covers seen f := by
  rw [depth_concat, covers_iff_depth]
  by_cases hr : r.Contains f
  · simp only [hr, if_true, true_and]
    omega
  · simp only [hr, if_false, false_and, or_false, Nat.add_zero]

/-- **One step of the sweep.** -/
theorem Sweep.Holds.add (h : s.Holds seen) (hr : r.1 ≤ r.2) (hstart : ∀ q ∈ seen, q.1 ≤ r.1) :
    (s.add r).Holds (seen ++ [r]) := by
  have hstarts : ∀ t ∈ s.merged, ∃ q ∈ seen ++ [r], q.1 = t.1 := fun t ht => by
    obtain ⟨q, hq, heq⟩ := h.starts t ht
    exact ⟨q, List.mem_append_left _ hq, heq⟩
  rcases List.eq_nil_or_concat s.merged with hm | ⟨init, last, hm⟩
  · rw [add_gap (by simp [hm])]
    have hnone : ∀ f, ¬ Covers seen f := fun f hf => by simpa [hm] using (h.covers f).mpr hf
    refine ⟨h.apart.concat hr (by simp [hm]), fun f => by simp [h.covers], ?_,
      h.overlaps_nonempty, fun f => ?_⟩
    · simp [hm]
    · rw [h.overlaps, two_le_depth_concat]
      simp [hnone]
  · rw [List.concat_eq_append] at hm
    have hlast : s.merged.getLast? = some last := by simp [hm]
    have hmeets {f : ℤ} (hf : r.1 ≤ f) : Covers seen f ↔ f ≤ last.2 :=
      h.covers_of_contains hm hstart hf
    obtain ⟨hinit, hbefore⟩ := (hm ▸ h.apart).before_last
    have hstartlast : last.1 ≤ r.1 := by
      obtain ⟨q, hq, heq⟩ := h.starts last (by simp [hm])
      exact heq ▸ hstart q hq
    have hlen : last.1 ≤ last.2 := h.apart.nonempty last (by simp [hm])
    by_cases hjoin : r.1 ≤ last.2 + 1
    · rw [add_join hlast hjoin, hm, List.dropLast_concat]
      refine ⟨hinit.concat (by dsimp only; omega) hbefore, fun f => ?_, fun t ht => ?_, ?_,
        fun f => ?_⟩
      · rw [covers_append, covers_append, ← h.covers, hm]
        simp only [covers_append, covers_cons, covers_nil, or_false, Contains]
        rw [or_assoc]
        refine or_congr_right ?_
        omega
      · rcases List.mem_append.mp ht with ht | ht
        · exact hstarts t (by simp [hm, ht])
        · rw [List.mem_singleton.mp ht]
          exact hstarts last (by simp [hm])
      · dsimp only
        split_ifs with hover
        · intro t ht
          rcases List.mem_append.mp ht with ht | ht
          · exact h.overlaps_nonempty t ht
          · rw [List.mem_singleton.mp ht]
            exact le_min hr hover
        · exact h.overlaps_nonempty
      · have hnew : r.Contains f ∧ Covers seen f ↔ r.1 ≤ f ∧ f ≤ min r.2 last.2 := by
          rw [le_min_iff]
          constructor
          · rintro ⟨⟨hlow, hhigh⟩, hseen⟩
            exact ⟨hlow, hhigh, (hmeets hlow).mp hseen⟩
          · rintro ⟨hlow, hhigh, hle⟩
            exact ⟨⟨hlow, hhigh⟩, (hmeets hlow).mpr hle⟩
        rw [two_le_depth_concat, ← h.overlaps, hnew]
        dsimp only
        split_ifs with hover
        · rw [covers_append, covers_cons]
          simp [Contains]
        · have hno : ¬ (r.1 ≤ f ∧ f ≤ min r.2 last.2) := by omega
          rw [iff_false_intro hno, or_false]
    · have hgap : last.2 + 1 < r.1 := by omega
      rw [add_gap fun last' hlast' => by
        obtain rfl := Option.some.inj (hlast.symm.trans hlast')
        exact hgap]
      refine ⟨h.apart.concat hr fun t ht => ?_, fun f => by simp [h.covers], fun t ht => ?_,
        h.overlaps_nonempty, fun f => ?_⟩
      · rw [hm] at ht
        rcases List.mem_append.mp ht with ht | ht
        · have := hbefore t ht
          omega
        · rw [List.mem_singleton.mp ht]
          exact hgap
      · rcases List.mem_append.mp ht with ht | ht
        · exact hstarts t ht
        · rw [List.mem_singleton.mp ht]
          exact ⟨r, by simp, rfl⟩
      · rw [h.overlaps, two_le_depth_concat]
        have hno : ¬ (r.Contains f ∧ Covers seen f) := by
          rintro ⟨hf, hseen⟩
          have := (hmeets hf.1).mp hseen
          have := hf.1
          omega
        simp [hno]

/-- **The sweep of sorted ranges.** -/
theorem holds_mergeRanges (hne : ∀ r ∈ l, r.1 ≤ r.2) (hsorted : l.Pairwise fun q r => q.1 ≤ r.1) :
    (mergeRanges l).Holds l := by
  induction l using List.reverseRecOn with
  | nil => exact ⟨.nil, fun _ => Iff.rfl, by simp [mergeRanges], by simp [mergeRanges],
      fun f => by simp [mergeRanges]⟩
  | append_singleton l r ih =>
    obtain ⟨hl, -, hlast⟩ := List.pairwise_append.mp hsorted
    have hstep := (ih (fun q hq => hne q (List.mem_append_left _ hq)) hl).add
      (hne r (by simp)) fun q hq => hlast q hq r List.mem_cons_self
    rwa [mergeRanges, List.foldl_append]

/-! ## What is missing -/

/-- Note what lies between the cursor and each range, up to the end of the job. -/
def walk (jobFrameEnd : ℤ) : List Span → ℤ → List Span × ℤ
  | [], cursor => ([], cursor)
  | r :: rest, cursor =>
    let missing := if cursor < r.1 then [(cursor, min (r.1 - 1) jobFrameEnd)] else []
    let cursor := max cursor (r.2 + 1)
    if jobFrameEnd < cursor then (missing, cursor)
    else
      let (more, cursor) := walk jobFrameEnd rest cursor
      (missing ++ more, cursor)

/-- The frames of a job between merged ranges. -/
def missingRanges (jobFrameStart jobFrameEnd : ℤ) (merged : List Span) : List Span :=
  let (missing, cursor) := walk jobFrameEnd merged jobFrameStart
  let missing := if cursor ≤ jobFrameEnd then missing ++ [(cursor, jobFrameEnd)] else missing
  missing.filter fun r => r.1 ≤ r.2

theorem missingRanges_cons :
    missingRanges a b (r :: merged) =
      (if a < r.1 then [(a, min (r.1 - 1) b)] else []).filter (fun r => r.1 ≤ r.2) ++
        if b < max a (r.2 + 1) then [] else missingRanges (max a (r.2 + 1)) b merged := by
  unfold missingRanges
  rw [walk]
  dsimp only
  by_cases hpast : b < max a (r.2 + 1)
  · rw [if_pos hpast, if_pos hpast, List.append_nil]
    dsimp only
    rw [if_neg (not_le.mpr hpast)]
  · rw [if_neg hpast, if_neg hpast]
    dsimp only
    split_ifs <;> simp only [List.filter_append, List.append_assoc]

/-- What the missing ranges are to a job and the ranges that cover its frames. -/
structure Gaps (a b : ℤ) (merged missing : List Span) : Prop where
  nonempty : ∀ r ∈ missing, r.1 ≤ r.2
  inside : ∀ r ∈ missing, a ≤ r.1 ∧ r.2 ≤ b
  sorted : missing.Pairwise fun r s => r.2 < s.1
  exact : ∀ f, a ≤ f → f ≤ b → (Covers missing f ↔ ¬ Covers merged f)

/-- The range before a span, up to the end of the job. -/
theorem mem_before {t : Span} :
    t ∈ (if a < r.1 then [(a, min (r.1 - 1) b)] else []).filter (fun r => r.1 ≤ r.2) ↔
      a < r.1 ∧ a ≤ b ∧ t = (a, min (r.1 - 1) b) := by
  split_ifs with h
  · simp only [List.mem_filter, List.mem_singleton, decide_eq_true_eq]
    constructor
    · rintro ⟨rfl, hne⟩
      dsimp only at hne
      exact ⟨h, by omega, rfl⟩
    · rintro ⟨-, hab, rfl⟩
      exact ⟨rfl, by dsimp only; omega⟩
  · simp [h]

/-- **The frames between merged ranges.** -/
theorem gaps_missingRanges (a b : ℤ) (h : Apart merged) :
    Gaps a b merged (missingRanges a b merged) := by
  induction merged generalizing a with
  | nil =>
    have hnil : missingRanges a b [] = if a ≤ b then [(a, b)] else [] := by
      unfold missingRanges walk
      dsimp only
      split_ifs with hab <;> simp [hab]
    rw [hnil]
    split_ifs with hab
    · refine ⟨by simpa using hab, by simp, List.pairwise_singleton _ _, fun f hlow hhigh => ?_⟩
      simp [Contains, hlow, hhigh]
    · exact ⟨by simp, by simp, .nil, fun f _ _ => by omega⟩
  | cons r rest ih =>
    have hr := h.nonempty r List.mem_cons_self
    -- the ranges after the cursor, if it has not passed the end of the job
    have hrest : Gaps (max a (r.2 + 1)) b rest
        (if b < max a (r.2 + 1) then [] else missingRanges (max a (r.2 + 1)) b rest) := by
      split_ifs with hpast
      · exact ⟨by simp, by simp, .nil, fun f _ _ => by omega⟩
      · exact ih _ h.tail
    rw [missingRanges_cons]
    generalize (if b < max a (r.2 + 1) then [] else missingRanges (max a (r.2 + 1)) b rest) = more
      at hrest ⊢
    refine ⟨fun t ht => ?_, fun t ht => ?_, ?_, fun f hlow hhigh => ?_⟩
    · rcases List.mem_append.mp ht with ht | ht
      · obtain ⟨hlt, hab, rfl⟩ := mem_before.mp ht
        dsimp only
        omega
      · exact hrest.nonempty t ht
    · rcases List.mem_append.mp ht with ht | ht
      · obtain ⟨hlt, hab, rfl⟩ := mem_before.mp ht
        exact ⟨le_refl _, min_le_right _ _⟩
      · have := hrest.inside t ht
        omega
    · refine List.pairwise_append.mpr ⟨?_, hrest.sorted, fun t ht u hu => ?_⟩
      · split_ifs
        · exact (List.pairwise_singleton _ _).filter _
        · exact .nil
      · obtain ⟨hlt, hab, rfl⟩ := mem_before.mp ht
        have := (hrest.inside u hu).1
        dsimp only
        omega
    · have hfirst : Covers ((if a < r.1 then [(a, min (r.1 - 1) b)] else []).filter
          (fun r => r.1 ≤ r.2)) f ↔ f < r.1 := by
        constructor
        · rintro ⟨t, ht, -, hle⟩
          obtain ⟨-, -, rfl⟩ := mem_before.mp ht
          dsimp only at hle
          omega
        · intro hlt
          exact ⟨_, mem_before.mpr ⟨by omega, by omega, rfl⟩, hlow, by dsimp only; omega⟩
      rw [covers_append, hfirst, covers_cons, not_or]
      have hmore : Covers more f → r.2 < f := by
        rintro ⟨t, ht, hle, -⟩
        have := (hrest.inside t ht).1
        omega
      have hlater : Covers rest f → r.2 < f := fun hf => by
        have := h.lt_of_covers hf
        omega
      by_cases hbefore : f < r.1
      · refine iff_of_true (.inl hbefore) ⟨fun hin => ?_, fun hin => ?_⟩
        · exact absurd hin.1 (by omega)
        · have := hlater hin
          omega
      · by_cases hin : f ≤ r.2
        · refine iff_of_false ?_ fun hout => hout.1 ⟨by omega, hin⟩
          rintro (hlt | hcov)
          · exact hbefore hlt
          · have := hmore hcov
            omega
        · rw [hrest.exact f (by omega) hhigh]
          have hout : ¬ r.Contains f := fun hc => hin hc.2
          simp [hbefore, hout]

/-! ## The report -/

/-- Which frames of a job no completed chunk covers, and which more than one does. -/
def computeFrameCoverage (jobFrameStart jobFrameEnd : ℤ) (chunks : List ChunkCoverage) :
    FrameCoverageReport :=
  let incompleteIds := (chunks.filter (!·.isComplete)).map (·.workloadId)
  let completeRanges := sortOn (fun r : Span => toLex r)
    ((chunks.filter (·.isComplete)).map ChunkCoverage.span)
  let sweep := mergeRanges completeRanges
  { jobFrameStart, jobFrameEnd
    missingRanges := missingRanges jobFrameStart jobFrameEnd sweep.merged
    overlappingRanges := sweep.overlaps
    incompleteChunkWorkloadIds := incompleteIds }

variable {chunks chunks' : List ChunkCoverage}

/-- The ranges of the completed chunks. -/
def completeSpans (chunks : List ChunkCoverage) : List Span :=
  (chunks.filter (·.isComplete)).map ChunkCoverage.span

theorem covers_completeSpans :
    Covers (completeSpans chunks) f ↔
      ∃ c ∈ chunks, c.isComplete = true ∧ c.frameStart ≤ f ∧ f ≤ c.frameEnd := by
  simp [Covers, completeSpans, ChunkCoverage.span, Contains, and_assoc]

theorem depth_completeSpans :
    depth (completeSpans chunks) f =
      chunks.countP fun c => c.isComplete ∧ c.frameStart ≤ f ∧ f ≤ c.frameEnd := by
  simp only [depth, completeSpans, List.countP_map, List.countP_filter]
  refine List.countP_congr fun c _ => ?_
  have hspan : c.span.Contains f ↔ c.frameStart ≤ f ∧ f ≤ c.frameEnd := Iff.rfl
  simp only [Function.comp_apply, hspan, Bool.and_eq_true, decide_eq_true_iff]
  exact and_comm

/-- The sweep over the completed chunks of a job. -/
theorem holds_sweep (hne : ∀ c ∈ chunks, c.frameStart ≤ c.frameEnd) :
    (mergeRanges (sortOn (fun r : Span => toLex r) (completeSpans chunks))).Holds
      (sortOn (fun r : Span => toLex r) (completeSpans chunks)) := by
  refine holds_mergeRanges (fun r hr => ?_) ?_
  · obtain ⟨c, hc, rfl⟩ := List.mem_map.mp (mem_sortOn.mp hr)
    exact hne c (List.mem_of_mem_filter hc)
  · exact (pairwise_sortOn _ _).imp fun hle => (Prod.Lex.toLex_le_toLex.mp hle).elim le_of_lt
      fun heq => heq.1.le

theorem gaps_computeFrameCoverage (hne : ∀ c ∈ chunks, c.frameStart ≤ c.frameEnd) :
    Gaps a b (completeSpans chunks) (computeFrameCoverage a b chunks).missingRanges := by
  have hsweep := holds_sweep hne
  have hgaps := gaps_missingRanges a b hsweep.apart
  refine ⟨hgaps.nonempty, hgaps.inside, hgaps.sorted, fun f hlow hhigh => ?_⟩
  have hsorted := depth_perm (f := f) (perm_sortOn (fun r : Span => toLex r) (completeSpans chunks))
  refine (hgaps.exact f hlow hhigh).trans (not_congr ?_)
  rw [hsweep.covers, covers_iff_depth, hsorted, covers_iff_depth]

/-- The sorted ranges do not depend on the order of the chunks. -/
theorem sortOn_completeSpans_of_perm (hp : chunks'.Perm chunks) :
    sortOn (fun r : Span => toLex r) (completeSpans chunks') =
      sortOn (fun r : Span => toLex r) (completeSpans chunks) :=
  sortOn_eq_of_perm (fun _ _ _ _ heq => toLex_inj.mp heq) ((hp.filter _).map _)

theorem isComplete_iff :
    (computeFrameCoverage a b chunks).isComplete = true ↔
      (computeFrameCoverage a b chunks).missingRanges = [] ∧ ∀ c ∈ chunks, c.isComplete = true := by
  rw [FrameCoverageReport.isComplete, Bool.and_eq_true, List.isEmpty_iff, List.isEmpty_iff]
  refine and_congr_right fun _ => ?_
  simp [computeFrameCoverage, List.filter_eq_nil_iff]

/-- **Frame coverage is exact.** A frame of the job lies in a missing range iff no completed chunk
contains it, and a frame lies in an overlapping range iff two completed chunks contain it. The
missing ranges are not empty, in order, apart and inside the job. In another order of the chunks the
ranges are the same and the incomplete chunks are listed in that order. The report is complete iff
every chunk is completed and every frame is covered. -/
theorem frame_coverage_exact (jobFrameStart jobFrameEnd : ℤ) (chunks : List ChunkCoverage)
    (hne : ∀ c ∈ chunks, c.frameStart ≤ c.frameEnd) :
    let report := computeFrameCoverage jobFrameStart jobFrameEnd chunks
    (∀ f, jobFrameStart ≤ f → f ≤ jobFrameEnd →
      ((∃ r ∈ report.missingRanges, r.1 ≤ f ∧ f ≤ r.2) ↔
        ¬ ∃ c ∈ chunks, c.isComplete = true ∧ c.frameStart ≤ f ∧ f ≤ c.frameEnd)) ∧
    (∀ f, (∃ r ∈ report.overlappingRanges, r.1 ≤ f ∧ f ≤ r.2) ↔
      2 ≤ chunks.countP fun c => c.isComplete ∧ c.frameStart ≤ f ∧ f ≤ c.frameEnd) ∧
    (∀ r ∈ report.missingRanges, r.1 ≤ r.2 ∧ jobFrameStart ≤ r.1 ∧ r.2 ≤ jobFrameEnd) ∧
    (report.missingRanges.Pairwise fun r s => r.2 < s.1) ∧
    (∀ chunks', chunks'.Perm chunks → computeFrameCoverage jobFrameStart jobFrameEnd chunks' =
      { report with incompleteChunkWorkloadIds :=
          (chunks'.filter (!·.isComplete)).map (·.workloadId) }) ∧
    (report.isComplete = true ↔ (∀ c ∈ chunks, c.isComplete = true) ∧
      ∀ f, jobFrameStart ≤ f → f ≤ jobFrameEnd →
        ∃ c ∈ chunks, c.frameStart ≤ f ∧ f ≤ c.frameEnd) := by
  intro report
  have hgaps : Gaps jobFrameStart jobFrameEnd (completeSpans chunks) report.missingRanges :=
    gaps_computeFrameCoverage hne
  have hexact : ∀ f, jobFrameStart ≤ f → f ≤ jobFrameEnd → (Covers report.missingRanges f ↔
      ¬ ∃ c ∈ chunks, c.isComplete = true ∧ c.frameStart ≤ f ∧ f ≤ c.frameEnd) := by
    intro f hlow hhigh
    rw [hgaps.exact f hlow hhigh, covers_completeSpans]
  refine ⟨hexact, fun f => ?_, fun r hr => ⟨hgaps.nonempty r hr, hgaps.inside r hr⟩, hgaps.sorted,
    fun chunks' hp => ?_, ?_⟩
  · have hoverlaps := (holds_sweep hne).overlaps f
    rw [depth_perm (perm_sortOn _ _), depth_completeSpans] at hoverlaps
    exact hoverlaps
  · have hsorted := sortOn_completeSpans_of_perm hp
    unfold completeSpans at hsorted
    unfold report computeFrameCoverage
    dsimp only
    rw [hsorted]
  · rw [isComplete_iff, and_comm]
    refine and_congr_right fun hall => ?_
    constructor
    · intro hnil f hlow hhigh
      by_contra hno
      refine (covers_nil (f := f)) (hnil ▸ (hexact f hlow hhigh).mpr ?_)
      rintro ⟨c, hc, -, hin⟩
      exact hno ⟨c, hc, hin⟩
    · intro hcov
      refine eq_nil_of_not_covers hgaps.nonempty fun f hf => ?_
      obtain ⟨r, hr, hlow, hhigh⟩ := hf
      obtain ⟨hstart, hend⟩ := hgaps.inside r hr
      obtain ⟨c, hc, hin⟩ := hcov f (hstart.trans hlow) (hhigh.trans hend)
      exact (hexact f (hstart.trans hlow) (hhigh.trans hend)).mp ⟨r, hr, hlow, hhigh⟩
        ⟨c, hc, hall c hc, hin⟩

/-- A job of ten frames of which two chunks cover the first five. -/
theorem frame_coverage_exact_two :
    (∃ r ∈ (computeFrameCoverage 1 10 [⟨"b", 3, 5, true⟩, ⟨"a", 1, 4, true⟩]).missingRanges,
      r.1 ≤ 7 ∧ 7 ≤ r.2) ↔
    ¬ ∃ c ∈ ([⟨"b", 3, 5, true⟩, ⟨"a", 1, 4, true⟩] : List ChunkCoverage),
      c.isComplete = true ∧ c.frameStart ≤ 7 ∧ 7 ≤ c.frameEnd :=
  (frame_coverage_exact 1 10 [⟨"b", 3, 5, true⟩, ⟨"a", 1, 4, true⟩] (by decide)).1 7 (by decide)
    (by decide)

/-- The incomplete chunks are listed in their order. -/
theorem incomplete_chunks_ordered :
    ¬ ∀ (jobFrameStart jobFrameEnd : ℤ) (chunks chunks' : List ChunkCoverage),
      (∀ c ∈ chunks, c.frameStart ≤ c.frameEnd) → chunks'.Perm chunks →
        computeFrameCoverage jobFrameStart jobFrameEnd chunks' =
          computeFrameCoverage jobFrameStart jobFrameEnd chunks := by
  intro h
  have hsame := h 1 2 [⟨"a", 1, 1, false⟩, ⟨"b", 2, 2, false⟩]
    [⟨"b", 2, 2, false⟩, ⟨"a", 1, 1, false⟩] (by decide) (.swap _ _ _)
  exact absurd hsame (by decide)

end Aidars.Frames
