import Aidars.Foundations.Pattern

/-!
# Substitutions, read piece by piece

The words that a pattern without anchors matches are its language (`Matches`): what follows them are
the rests that the matcher lists (`mem_ends_iff`). A substitution reads a text as pieces, the
characters it keeps and the matches it replaces (`pieces`), and writes the replacement for each of
the latter (`subAfter_eq_render`).

The main result is `subAfter_idem_iff`: a substitution whose replacement is itself a match up to the
next stop character is idempotent on a text exactly when a stop character, or nothing, follows each
match. `count_subAfter` is the measure by which two substitutions do not undo each other.
-/

namespace Aidars.Pattern

/-! ## Languages -/

/-- No anchor occurs in the pattern. -/
def Plain : Pattern → Bool
  | empty | one _ | many _ => true
  | atStart | atEnd => false
  | seq a b | alt a b => a.Plain && b.Plain

/-- The words that a pattern without anchors matches. -/
def Matches : Pattern → List Char → Prop
  | empty, x => x = []
  | one p, x => ∃ c, p c = true ∧ x = [c]
  | atStart, _ | atEnd, _ => False
  | seq a b, x => ∃ y z, x = y ++ z ∧ a.Matches y ∧ b.Matches z
  | alt a b, x => a.Matches x ∨ b.Matches x
  | many p, x => ∀ c ∈ x, p c = true

variable {a b keep body : Pattern} {p stop : Char → Bool} {n : ℕ}
  {s t x y z mid rest repl : List Char} {c d m : Char}

theorem mem_manyEnds : t ∈ manyEnds p s ↔ ∃ x, s = x ++ t ∧ ∀ c ∈ x, p c = true := by
  induction s with
  | nil =>
    simp only [manyEnds, List.mem_singleton]
    constructor
    · rintro rfl
      exact ⟨[], rfl, by simp⟩
    · rintro ⟨x, hx, -⟩
      exact (List.append_eq_nil_iff.1 hx.symm).2
  | cons c s ih =>
    have hself : t = c :: s → ∃ x, c :: s = x ++ t ∧ ∀ c ∈ x, p c = true := by
      rintro rfl
      exact ⟨[], rfl, by simp⟩
    unfold manyEnds
    split_ifs with hc
    · rw [List.mem_append, ih, List.mem_singleton]
      constructor
      · rintro (⟨x, rfl, hx⟩ | ht)
        · exact ⟨c :: x, rfl, List.forall_mem_cons.2 ⟨hc, hx⟩⟩
        · exact hself ht
      · rintro ⟨_ | ⟨d, x⟩, hx, hall⟩
        · exact .inr hx.symm
        · obtain ⟨rfl, rfl⟩ := List.cons.inj hx
          exact .inl ⟨x, rfl, (List.forall_mem_cons.1 hall).2⟩
    · rw [List.mem_singleton]
      refine ⟨hself, ?_⟩
      rintro ⟨_ | ⟨d, x⟩, hx, hall⟩
      · exact hx.symm
      · obtain ⟨rfl, -⟩ := List.cons.inj hx
        exact absurd (List.forall_mem_cons.1 hall).1 hc

/-- The longest match of a repetition comes first. -/
theorem head?_manyEnds (s : List Char) : (manyEnds p s).head? = .some (s.dropWhile p) := by
  induction s with
  | nil => rfl
  | cons c s ih =>
    unfold manyEnds
    split_ifs with hc
    · rw [List.head?_append, ih, List.dropWhile_cons_of_pos hc]
      rfl
    · rw [List.dropWhile_cons_of_neg hc]
      rfl

/-- **The rests that the matcher lists are those after the words of the language.** -/
theorem mem_ends_iff (ha : a.Plain = true) :
    t ∈ ends n a s ↔ ∃ x, s = x ++ t ∧ a.Matches x := by
  induction a generalizing s t with
  | empty => simp [ends, Matches, eq_comm]
  | one p =>
    cases s with
    | nil => simp [ends, Matches]
    | cons c s =>
      unfold ends
      constructor
      · intro h
        split_ifs at h with hc
        · exact ⟨[c], by rw [List.mem_singleton.1 h]; rfl, c, hc, rfl⟩
        · cases h
      · rintro ⟨x, hx, d, hd, rfl⟩
        obtain ⟨rfl, rfl⟩ := List.cons.inj hx
        rw [if_pos hd]
        exact List.mem_singleton_self _
  | atStart => cases ha
  | atEnd => cases ha
  | seq a b iha ihb =>
    obtain ⟨ha, hb⟩ := Bool.and_eq_true_iff.1 ha
    simp only [ends, List.mem_flatMap, iha ha, ihb hb]
    constructor
    · rintro ⟨_, ⟨y, rfl, hy⟩, z, rfl, hz⟩
      exact ⟨y ++ z, (List.append_assoc ..).symm, y, z, rfl, hy, hz⟩
    · rintro ⟨_, rfl, y, z, rfl, hy, hz⟩
      exact ⟨z ++ t, ⟨y, List.append_assoc .., hy⟩, z, rfl, hz⟩
  | alt a b iha ihb =>
    obtain ⟨ha, hb⟩ := Bool.and_eq_true_iff.1 ha
    simp only [ends, List.mem_append, iha ha, ihb hb, Matches]
    constructor
    · rintro (⟨x, hx, h⟩ | ⟨x, hx, h⟩)
      · exact ⟨x, hx, .inl h⟩
      · exact ⟨x, hx, .inr h⟩
    · rintro ⟨x, hx, h | h⟩
      · exact .inl ⟨x, hx, h⟩
      · exact .inr ⟨x, hx, h⟩
  | many p => exact mem_manyEnds

/-- The length of the whole text is for anchors only. -/
theorem ends_length (ha : a.Plain = true) (n k : ℕ) (s : List Char) : ends n a s = ends k a s := by
  induction a generalizing s with
  | empty | many p => rfl
  | one p => cases s <;> rfl
  | atStart => cases ha
  | atEnd => cases ha
  | seq a b iha ihb =>
    obtain ⟨ha, hb⟩ := Bool.and_eq_true_iff.1 ha
    have hrest : ends n b = ends k b := funext (ihb hb)
    unfold ends
    rw [iha ha, hrest]
  | alt a b iha ihb =>
    obtain ⟨ha, hb⟩ := Bool.and_eq_true_iff.1 ha
    unfold ends
    rw [iha ha, ihb hb]

/-- The empty word can belong to the language. -/
def nullable : Pattern → Bool
  | empty | many _ => true
  | one _ | atStart | atEnd => false
  | seq a b => a.nullable && b.nullable
  | alt a b => a.nullable || b.nullable

theorem nullable_of_matches (h : a.Matches []) : a.nullable = true := by
  induction a with
  | empty | many p => rfl
  | one p =>
    obtain ⟨c, -, hc⟩ := h
    cases hc
  | atStart => cases h
  | atEnd => cases h
  | seq a b iha ihb =>
    obtain ⟨y, z, hyz, hy, hz⟩ := h
    obtain ⟨rfl, rfl⟩ := List.append_eq_nil_iff.1 hyz.symm
    exact Bool.and_eq_true_iff.2 ⟨iha hy, ihb hz⟩
  | alt a b iha ihb => exact Bool.or_eq_true_iff.2 (h.imp iha ihb)

/-- The characters that can stand first in a word. -/
def firsts : Pattern → Char → Bool
  | empty, _ | atStart, _ | atEnd, _ => false
  | one p, c | many p, c => p c
  | seq a b, c => a.firsts c || a.nullable && b.firsts c
  | alt a b, c => a.firsts c || b.firsts c

theorem firsts_of_matches (h : a.Matches (c :: x)) : a.firsts c = true := by
  induction a generalizing x with
  | empty => cases h
  | one p =>
    obtain ⟨d, hd, hx⟩ := h
    obtain ⟨rfl, -⟩ := List.cons.inj hx
    exact hd
  | atStart => cases h
  | atEnd => cases h
  | seq a b iha ihb =>
    obtain ⟨_ | ⟨d, y⟩, z, hyz, hy, hz⟩ := h
    · rw [List.nil_append] at hyz
      subst hyz
      simp [firsts, nullable_of_matches hy, ihb hz]
    · obtain ⟨rfl, -⟩ := List.cons.inj hyz
      simp [firsts, iha hy]
  | alt a b iha ihb => exact Bool.or_eq_true_iff.2 (h.imp iha ihb)
  | many p => exact h c List.mem_cons_self

/-- The characters that can stand in a word. -/
def chars : Pattern → Char → Bool
  | empty, _ | atStart, _ | atEnd, _ => false
  | one p, c | many p, c => p c
  | seq a b, c | alt a b, c => a.chars c || b.chars c

theorem chars_of_matches (h : a.Matches x) (hc : c ∈ x) : a.chars c = true := by
  induction a generalizing x with
  | empty =>
    subst h
    cases hc
  | one p =>
    obtain ⟨d, hd, rfl⟩ := h
    rw [List.mem_singleton.1 hc]
    exact hd
  | atStart => cases h
  | atEnd => cases h
  | seq a b iha ihb =>
    obtain ⟨y, z, rfl, hy, hz⟩ := h
    exact Bool.or_eq_true_iff.2 ((List.mem_append.1 hc).imp (iha hy) (ihb hz))
  | alt a b iha ihb =>
    refine Bool.or_eq_true_iff.2 ?_
    exact h.imp (iha · hc) (ihb · hc)
  | many p => exact h c hc

/-! ## Matches -/

theorem firstMatch_length (hk : keep.Plain = true) (hb : body.Plain = true) (n k : ℕ)
    (s : List Char) : firstMatch keep body n s = firstMatch keep body k s := by
  have hbody : ends n body = ends k body := funext (ends_length hb n k)
  unfold firstMatch
  rw [ends_length hk n k, hbody]

theorem firstMatch_eq_none_iff (hk : keep.Plain = true) (hb : body.Plain = true) :
    firstMatch keep body n s = none ↔
      ∀ x y z, s = x ++ (y ++ z) → keep.Matches x → ¬ body.Matches y := by
  unfold firstMatch
  simp only [List.head?_eq_none_iff, List.flatMap_eq_nil_iff, List.map_eq_nil_iff]
  constructor
  · intro h x y z hs hx hy
    have hmid := h (y ++ z) ((mem_ends_iff hk).2 ⟨x, hs, hx⟩)
    have hrest : z ∈ ends n body (y ++ z) := (mem_ends_iff hb).2 ⟨y, rfl, hy⟩
    rw [hmid] at hrest
    cases hrest
  · intro h mid hmid
    obtain ⟨x, rfl, hx⟩ := (mem_ends_iff hk).1 hmid
    refine List.eq_nil_iff_forall_not_mem.2 fun rest hrest => ?_
    obtain ⟨y, rfl, hy⟩ := (mem_ends_iff hb).1 hrest
    exact h x y rest rfl hx hy

/-- What a match consists of. -/
theorem exists_of_firstMatch (hk : keep.Plain = true) (hb : body.Plain = true)
    (h : firstMatch keep body n s = .some (mid, rest)) :
    ∃ x y, s = x ++ mid ∧ mid = y ++ rest ∧ keep.Matches x ∧ body.Matches y := by
  unfold firstMatch at h
  obtain ⟨mid', hmid, hpair⟩ := List.mem_flatMap.1 (List.mem_of_mem_head? h)
  obtain ⟨rest', hrest, he⟩ := List.mem_map.1 hpair
  obtain ⟨rfl, rfl⟩ := Prod.mk.inj he
  obtain ⟨x, hs, hx⟩ := (mem_ends_iff hk).1 hmid
  obtain ⟨y, hy, hbody⟩ := (mem_ends_iff hb).1 hrest
  exact ⟨x, y, hs, hy, hx, hbody⟩

/-- The match is known if the kept part of every match is the same. -/
theorem firstMatch_of_forall (hk : keep.Plain = true) (hb : body.Plain = true)
    (hx : keep.Matches x)
    (hmid : ∀ x' y' z', x ++ mid = x' ++ (y' ++ z') → keep.Matches x' → body.Matches y' →
      y' ++ z' = mid)
    (hrest : (ends n body mid).head? = .some rest) :
    firstMatch keep body n (x ++ mid) = .some (mid, rest) := by
  have hall : ∀ t ∈ ends n keep (x ++ mid),
      ((ends n body t).map fun rest => (t, rest)).head? = none ∨
        ((ends n body t).map fun rest => (t, rest)).head? = .some (mid, rest) := by
    intro t ht
    obtain ⟨x', hx', hkeep⟩ := (mem_ends_iff hk).1 ht
    cases hends : ends n body t with
    | nil => exact .inl rfl
    | cons z l =>
      obtain ⟨y, rfl, hy⟩ := (mem_ends_iff hb).1 (hends ▸ List.mem_cons_self : z ∈ ends n body t)
      have he := hmid x' y z hx' hkeep hy
      rw [he] at hends
      rw [hends] at hrest
      rw [he]
      exact .inr (congrArg (Option.map (mid, ·)) hrest)
  have hmem : mid ∈ ends n keep (x ++ mid) := (mem_ends_iff hk).2 ⟨x, rfl, hx⟩
  unfold firstMatch
  rw [List.head?_flatMap]
  revert hall hmem
  generalize ends n keep (x ++ mid) = l
  intro hall hmem
  induction l with
  | nil => cases hmem
  | cons t l ih =>
    rw [List.findSome?_cons]
    rcases hall t List.mem_cons_self with ht | ht
    · rw [ht]
      refine ih (fun u hu => hall u (List.mem_cons_of_mem t hu)) ?_
      refine (List.mem_cons.1 hmem).resolve_left fun he => ?_
      rw [← he, List.head?_map, hrest] at ht
      cases ht
    · rw [ht]

/-! ## Pieces -/

/-- The scan of `pieces`; the fuel bounds the number of characters left. -/
def piecesLoop (keep body : Pattern) (n : ℕ) : ℕ → List Char → List (Option Char)
  | 0, s => s.map .some
  | _ + 1, [] => []
  | fuel + 1, c :: s =>
    match firstMatch keep body n (c :: s) with
    | .some (mid, rest) =>
      ((c :: s).take ((c :: s).length - mid.length)).map .some ++
        none :: piecesLoop keep body n fuel rest
    | none => .some c :: piecesLoop keep body n fuel s

/-- What a substitution reads: the characters that it keeps, and `none` for each match that it
replaces. -/
def pieces (keep body : Pattern) (s : List Char) : List (Option Char) :=
  piecesLoop keep body s.length s.length s

/-- Write pieces, with a replacement for the matches. -/
def render (repl : List Char) (l : List (Option Char)) : List Char :=
  l.flatMap fun
    | .some c => [c]
    | none => repl

@[simp] theorem render_nil : render repl [] = [] := rfl

@[simp] theorem render_some (l : List (Option Char)) :
    render repl (.some c :: l) = c :: render repl l := rfl

@[simp] theorem render_none (l : List (Option Char)) :
    render repl (none :: l) = repl ++ render repl l := rfl

@[simp] theorem render_append (l l' : List (Option Char)) :
    render repl (l ++ l') = render repl l ++ render repl l' := List.flatMap_append

@[simp] theorem render_map_some (s : List Char) : render repl (s.map .some) = s := by
  induction s with
  | nil => rfl
  | cons c s ih => rw [List.map_cons, render_some, ih]

theorem subLoop_eq_render (n fuel : ℕ) (s : List Char) :
    subLoop keep body n repl fuel s = render repl (piecesLoop keep body n fuel s) := by
  induction fuel generalizing s with
  | zero => exact (render_map_some s).symm
  | succ fuel ih =>
    cases s with
    | nil => rfl
    | cons c s =>
      unfold subLoop piecesLoop
      cases firstMatch keep body n (c :: s) with
      | none => rw [render_some, ← ih]
      | some m =>
        dsimp only
        rw [render_append, render_map_some, render_none, ← ih, List.append_assoc]

/-- **A substitution writes the pieces that it reads.** -/
theorem subAfter_eq_render (s : List Char) :
    subAfter keep body repl s = render repl (pieces keep body s) :=
  subLoop_eq_render ..

/-- A character outside the replacement is one that was kept. -/
theorem exists_of_render {l : List (Option Char)} (hd : d ∉ repl)
    (hl : render repl l = x ++ d :: y) :
    ∃ before after, l = before ++ .some d :: after ∧ render repl before = x ∧
      render repl after = y := by
  induction l generalizing x with
  | nil => exact absurd hl.symm (by simp)
  | cons piece l ih =>
    cases piece with
    | some c =>
      cases x with
      | nil =>
        obtain ⟨rfl, htail⟩ := List.cons.inj hl
        exact ⟨[], l, rfl, rfl, htail⟩
      | cons c' x =>
        obtain ⟨rfl, htail⟩ := List.cons.inj hl
        obtain ⟨before, after, rfl, rfl, hafter⟩ := ih htail
        exact ⟨.some c :: before, after, rfl, rfl, hafter⟩
    | none =>
      rw [render_none] at hl
      rcases List.append_eq_append_iff.1 hl with ⟨a, rfl, ha⟩ | ⟨a, ha, htail⟩
      · obtain ⟨before, after, rfl, rfl, hafter⟩ := ih ha
        exact ⟨none :: before, after, rfl, rfl, hafter⟩
      · cases a with
        | nil =>
          obtain ⟨before, after, rfl, hbefore, hafter⟩ := ih (x := []) htail.symm
          refine ⟨none :: before, after, rfl, ?_, hafter⟩
          simpa [hbefore] using ha
        | cons c a =>
          obtain ⟨rfl, -⟩ := List.cons.inj htail
          exact absurd (ha ▸ List.mem_append_right x List.mem_cons_self) hd

/-- A text that does not contain the first character of the replacement was kept. -/
theorem exists_of_render_append {l : List (Option Char)} {w : List Char} (hx : m ∉ x)
    (hl : render (m :: w) l = x ++ y) :
    ∃ after, l = x.map .some ++ after ∧ render (m :: w) after = y := by
  induction x generalizing l with
  | nil => exact ⟨l, rfl, hl⟩
  | cons c x ih =>
    cases l with
    | nil => cases hl
    | cons piece l =>
      cases piece with
      | none =>
        obtain ⟨rfl, -⟩ := List.cons.inj hl
        exact absurd List.mem_cons_self hx
      | some d =>
        obtain ⟨rfl, htail⟩ := List.cons.inj hl
        obtain ⟨after, rfl, hafter⟩ := ih (fun hmem => hx (List.mem_cons_of_mem d hmem)) htail
        exact ⟨after, rfl, hafter⟩

/-- Two patterns for a substitution: no anchors occur in them, and what is kept before a match is
not empty. -/
structure Scans (keep body : Pattern) : Prop where
  plain_keep : keep.Plain = true
  plain_body : body.Plain = true
  nullable_keep : keep.nullable = false

namespace Scans

variable (h : Scans keep body)

include h

theorem ne_nil (hx : keep.Matches x) : x ≠ [] := by
  rintro rfl
  have := nullable_of_matches hx
  rw [h.nullable_keep] at this
  cases this

theorem length_lt (hm : firstMatch keep body n s = .some (mid, rest)) :
    rest.length < s.length := by
  obtain ⟨x, y, rfl, rfl, hx, -⟩ := exists_of_firstMatch h.plain_keep h.plain_body hm
  have hpos := List.length_pos_of_ne_nil (h.ne_nil hx)
  simp only [List.length_append]
  omega

/-- Neither the length of the whole text nor the fuel matters. -/
theorem piecesLoop_eq {n k fuel fuel' : ℕ} (hf : s.length ≤ fuel) (hf' : s.length ≤ fuel') :
    piecesLoop keep body n fuel s = piecesLoop keep body k fuel' s := by
  induction fuel generalizing s fuel' with
  | zero =>
    obtain rfl := List.length_eq_zero_iff.1 (Nat.le_zero.1 hf)
    cases fuel' <;> rfl
  | succ fuel ih =>
    cases s with
    | nil => cases fuel' <;> rfl
    | cons c s =>
      cases fuel' with
      | zero => cases hf'
      | succ fuel' =>
        unfold piecesLoop
        rw [firstMatch_length h.plain_keep h.plain_body n k]
        cases hm : firstMatch keep body k (c :: s) with
        | none =>
          dsimp only
          rw [ih (Nat.le_of_succ_le_succ hf) (Nat.le_of_succ_le_succ hf')]
        | some m =>
          have hlt := h.length_lt hm
          have hrest : piecesLoop keep body n fuel m.2 = piecesLoop keep body k fuel' m.2 :=
            ih (by omega) (by omega)
          dsimp only
          rw [hrest]

theorem pieces_of_none (hm : firstMatch keep body n (c :: s) = none) :
    pieces keep body (c :: s) = .some c :: pieces keep body s := by
  rw [firstMatch_length h.plain_keep h.plain_body n (c :: s).length] at hm
  unfold pieces
  rw [List.length_cons, piecesLoop, ← List.length_cons, hm]
  dsimp only
  rw [h.piecesLoop_eq (by rfl) (by rfl)]

theorem pieces_of_some (hm : firstMatch keep body n (x ++ mid) = .some (mid, rest)) :
    pieces keep body (x ++ mid) = x.map .some ++ none :: pieces keep body rest := by
  have hlt := h.length_lt hm
  rw [firstMatch_length h.plain_keep h.plain_body n (x ++ mid).length] at hm
  have htake : (x ++ mid).take ((x ++ mid).length - mid.length) = x := by
    rw [List.length_append, Nat.add_sub_cancel, List.take_left']
    rfl
  unfold pieces
  revert hm hlt htake
  generalize x ++ mid = s
  intro hm hlt htake
  cases s with
  | nil => cases hlt
  | cons c s =>
    conv_lhs => rw [List.length_cons, piecesLoop, ← List.length_cons, hm]
    dsimp only
    rw [htake, h.piecesLoop_eq (by simpa using Nat.le_of_lt_succ hlt) (le_refl _)]

/-- Induction along the scan of a text. -/
theorem induction {motive : List Char → Prop} (nil : motive [])
    (hit : ∀ x y rest, keep.Matches x → body.Matches y →
      firstMatch keep body 0 (x ++ (y ++ rest)) = .some (y ++ rest, rest) → motive rest →
      motive (x ++ (y ++ rest)))
    (miss : ∀ c s, firstMatch keep body 0 (c :: s) = none → motive s → motive (c :: s))
    (s : List Char) : motive s := by
  induction hs : s.length using Nat.strong_induction_on generalizing s with
  | _ k ih =>
    subst hs
    cases s with
    | nil => exact nil
    | cons c s =>
      cases hm : firstMatch keep body 0 (c :: s) with
      | none => exact miss c s hm (ih s.length (by simp) s rfl)
      | some m =>
        obtain ⟨mid, rest⟩ := m
        have hlt := h.length_lt hm
        obtain ⟨x, y, hs, rfl, hx, hy⟩ := exists_of_firstMatch h.plain_keep h.plain_body hm
        rw [hs] at hm ⊢
        exact hit x y rest hx hy hm (ih rest.length hlt rest rfl)

theorem subAfter_of_none (hm : firstMatch keep body n (c :: s) = none) :
    subAfter keep body repl (c :: s) = c :: subAfter keep body repl s := by
  rw [subAfter_eq_render, h.pieces_of_none hm, render_some, ← subAfter_eq_render]

theorem subAfter_of_some (hm : firstMatch keep body n (x ++ mid) = .some (mid, rest)) :
    subAfter keep body repl (x ++ mid) = x ++ (repl ++ subAfter keep body repl rest) := by
  rw [subAfter_eq_render, h.pieces_of_some hm, render_append, render_map_some, render_none,
    ← subAfter_eq_render]

/-- The first character is kept. -/
theorem head?_pieces (s : List Char) :
    (pieces keep body s).head? = s.head?.map .some := by
  cases s using h.induction with
  | nil => rfl
  | hit x y rest hx hy hm ih =>
    rw [h.pieces_of_some hm]
    cases x with
    | nil => exact absurd rfl (h.ne_nil hx)
    | cons c x => rfl
  | miss c s hm ih => rw [h.pieces_of_none hm]; rfl

theorem head?_subAfter (s : List Char) : (subAfter keep body repl s).head? = s.head? := by
  have hhead := h.head?_pieces s
  rw [subAfter_eq_render]
  cases hp : pieces keep body s with
  | nil =>
    rw [hp] at hhead
    cases s with
    | nil => rfl
    | cons c s => cases hhead
  | cons piece l =>
    rw [hp] at hhead
    obtain ⟨c, hs, hc⟩ := Option.map_eq_some_iff.1 hhead.symm
    rw [hs, ← hc]
    rfl

/-! ## Counting -/

/-- A character that the replacement does not contain does not get more frequent. -/
theorem count_subAfter_le (hc : c ∉ repl) (s : List Char) :
    (subAfter keep body repl s).count c ≤ s.count c := by
  induction s using h.induction with
  | nil => exact le_refl _
  | hit x y rest hx hy hm ih =>
    rw [h.subAfter_of_some hm]
    simp only [List.count_append, List.count_eq_zero_of_not_mem hc]
    omega
  | miss d s hm ih =>
    rw [h.subAfter_of_none hm, List.count_cons, List.count_cons]
    omega

/-- **It gets less frequent where a match contains it.** -/
theorem firstMatch_of_count (hc : c ∉ repl) (hbody : ∀ y, body.Matches y → c ∈ y)
    (hcount : s.count c ≤ (subAfter keep body repl s).count c) (ht : t <:+ s) :
    firstMatch keep body n t = none := by
  induction s using h.induction with
  | nil =>
    obtain rfl := List.suffix_nil.1 ht
    rw [firstMatch_eq_none_iff h.plain_keep h.plain_body]
    intro x y z hs hx _
    exact h.ne_nil hx (List.append_eq_nil_iff.1 hs.symm).1
  | hit x y rest hx hy hm ih =>
    have hle := h.count_subAfter_le hc rest
    have hpos := List.count_pos_iff.2 (hbody y hy)
    rw [h.subAfter_of_some hm] at hcount
    simp only [List.count_append, List.count_eq_zero_of_not_mem hc] at hcount
    omega
  | miss d s hm ih =>
    rw [h.subAfter_of_none hm, List.count_cons, List.count_cons] at hcount
    rcases List.suffix_cons_iff.1 ht with rfl | ht
    · rw [firstMatch_length h.plain_keep h.plain_body n 0, hm]
    · exact ih (by omega) ht

theorem subAfter_eq_self_iff (hc : c ∉ repl) (hbody : ∀ y, body.Matches y → c ∈ y) :
    subAfter keep body repl s = s ↔
      ∀ w x y z, s = w ++ (x ++ (y ++ z)) → keep.Matches x → ¬ body.Matches y := by
  constructor
  · intro hs w x y z hw hx
    have hnone : firstMatch keep body 0 (x ++ (y ++ z)) = none :=
      h.firstMatch_of_count hc hbody (by rw [hs]) ⟨w, hw.symm⟩
    exact (firstMatch_eq_none_iff h.plain_keep h.plain_body).1 hnone x y z rfl hx
  · intro hall
    refine subAfter_of_forall_firstMatch fun t ht => ?_
    obtain ⟨w, rfl⟩ := ht
    refine (firstMatch_eq_none_iff h.plain_keep h.plain_body).2 fun x y z hs => ?_
    exact hall w x y z (by rw [hs])

end Scans

/-! ## Idempotence -/

/-- After each match comes a stop character or nothing. -/
def delimited (stop : Char → Bool) : List (Option Char) → Bool
  | [] => true
  | .some _ :: l => delimited stop l
  | none :: l => l.head?.all (·.any stop) && delimited stop l

theorem delimited_append (s : List Char) (l : List (Option Char)) :
    delimited stop (s.map .some ++ l) = delimited stop l := by
  induction s with
  | nil => rfl
  | cons c s ih => exact ih

/-- The replacement is itself a match, up to the next stop character: it starts with `m`, which is
not kept before a match; a match starts with no stop character, and each other one starts a match;
what is kept before a match starts with no stop character either, and is only made longer by one. -/
structure Replaces (keep body : Pattern) (stop : Char → Bool) (m : Char) (repl : List Char) : Prop
    extends Scans keep body where
  head : repl.head? = .some m
  marker : keep.chars m = false
  stop_marker : stop m = false
  nullable_body : body.nullable = false
  starts : ∀ d, stop d = true → keep.firsts d = false ∧ body.firsts d = false
  body_one : ∀ d, stop d = false → body.Matches [d]
  longer : ∀ x d z, keep.Matches x → keep.Matches (x ++ d :: z) → stop d = true
  again : ∀ r, (ends 0 body (repl ++ r)).head? = .some (r.dropWhile fun d => !stop d)

namespace Replaces

variable (h : Replaces keep body stop m repl)

include h

theorem exists_of_body (hy : body.Matches y) : ∃ d z, y = d :: z ∧ stop d = false := by
  cases y with
  | nil =>
    have := nullable_of_matches hy
    rw [h.nullable_body] at this
    cases this
  | cons d z =>
    refine ⟨d, z, rfl, Bool.eq_false_iff.2 fun hd => ?_⟩
    have := firsts_of_matches hy
    rw [(h.starts d hd).2] at this
    cases this

theorem notMem (hx : keep.Matches x) : m ∉ x := by
  intro hm
  have := chars_of_matches hx hm
  rw [h.marker] at this
  cases this

theorem exists_repl : ∃ w, repl = m :: w := by
  have hhead := h.head
  cases repl with
  | nil => cases hhead
  | cons d w => exact ⟨w, by rw [Option.some.inj hhead]⟩

/-- A replacement is replaced, and what follows it up to the next stop character. -/
theorem firstMatch_again (hx : keep.Matches x) (r : List Char) :
    firstMatch keep body 0 (x ++ (repl ++ r)) =
      .some (repl ++ r, r.dropWhile fun d => !stop d) := by
  obtain ⟨w, hw⟩ := h.exists_repl
  refine firstMatch_of_forall h.plain_keep h.plain_body hx (fun x' y' z' he hx' hy' => ?_)
    (h.again r)
  rcases List.append_eq_append_iff.1 he with ⟨a, rfl, ha⟩ | ⟨a, rfl, ha⟩
  · cases a with
    | nil => exact ha.symm
    | cons d a =>
      rw [hw] at ha
      obtain ⟨rfl, -⟩ := List.cons.inj ha
      exact absurd (List.mem_append_right x List.mem_cons_self) (h.notMem hx')
  · cases a with
    | nil => exact ha
    | cons d a =>
      obtain ⟨e, y, rfl, hstop⟩ := h.exists_of_body hy'
      obtain ⟨rfl, -⟩ := List.cons.inj ha
      rw [h.longer x' e a hx' hx] at hstop
      cases hstop

/-- Before its first replacement, a text is as it was; the replacement stands where a match starts,
with a character that is no stop character. -/
theorem exists_of_subAfter (hm : m ∉ x) (hd : stop d = false)
    (hs : subAfter keep body repl s = x ++ d :: z) :
    ∃ d' z', s = x ++ d' :: z' ∧ stop d' = false := by
  obtain ⟨w, hw⟩ := h.exists_repl
  induction s using h.toScans.induction generalizing x with
  | nil => exact absurd hs.symm (by simp [subAfter, subLoop])
  | hit x₀ y rest hx hy hmatch ih =>
    obtain ⟨e, y, rfl, he⟩ := h.exists_of_body hy
    rw [h.subAfter_of_some hmatch] at hs
    rcases List.append_eq_append_iff.1 hs with ⟨a, rfl, ha⟩ | ⟨a, rfl, ha⟩
    · cases a with
      | nil => exact ⟨e, y ++ rest, by rw [List.append_nil]; rfl, he⟩
      | cons c a =>
        rw [hw] at ha
        obtain ⟨rfl, -⟩ := List.cons.inj ha
        exact absurd (List.mem_append_right x₀ List.mem_cons_self) hm
    · cases a with
      | nil => exact ⟨e, y ++ rest, by rw [List.append_nil]; rfl, he⟩
      | cons c a =>
        obtain ⟨rfl, -⟩ := List.cons.inj ha
        exact ⟨d, a ++ (e :: y ++ rest), by rw [List.append_assoc]; rfl, hd⟩
  | miss c s hmatch ih =>
    rw [h.subAfter_of_none hmatch] at hs
    cases x with
    | nil =>
      obtain ⟨rfl, -⟩ := List.cons.inj hs
      exact ⟨c, s, rfl, hd⟩
    | cons c' x =>
      obtain ⟨rfl, htail⟩ := List.cons.inj hs
      obtain ⟨d', z', rfl, hd'⟩ := ih (fun hmem => hm (List.mem_cons_of_mem c hmem)) htail
      exact ⟨d', z', rfl, hd'⟩

/-- Where nothing matches, nothing matches when the rest is substituted. -/
theorem firstMatch_miss (hm : firstMatch keep body 0 (c :: s) = none) :
    firstMatch keep body 0 (c :: subAfter keep body repl s) = none := by
  rw [firstMatch_eq_none_iff h.plain_keep h.plain_body] at hm ⊢
  intro x y z hs hx hy
  obtain ⟨d, y, rfl, hd⟩ := h.exists_of_body hy
  cases x with
  | nil => exact h.ne_nil hx rfl
  | cons c' x =>
    obtain ⟨rfl, htail⟩ := List.cons.inj hs
    have hnot : m ∉ x := fun hmem => h.notMem hx (List.mem_cons_of_mem c hmem)
    obtain ⟨d', z', rfl, hd'⟩ := h.exists_of_subAfter hnot hd htail
    exact hm (c :: x) [d'] z' rfl hx (h.body_one d' hd')

/-- **A substitution is idempotent on a text iff each match is followed by a stop character or by
nothing.** -/
theorem subAfter_idem_iff (s : List Char) :
    subAfter keep body repl (subAfter keep body repl s) = subAfter keep body repl s ↔
      delimited stop (pieces keep body s) = true := by
  induction s using h.toScans.induction with
  | nil => exact iff_of_true rfl rfl
  | hit x y rest hx hy hm ih =>
    rw [h.subAfter_of_some hm, h.subAfter_of_some (h.firstMatch_again hx _),
      List.append_cancel_left_eq, List.append_cancel_left_eq, h.pieces_of_some hm,
      delimited_append, delimited, h.head?_pieces, Bool.and_eq_true]
    cases rest with
    | nil => exact iff_of_true rfl ⟨rfl, rfl⟩
    | cons r rest =>
      have hhead : (subAfter keep body repl (r :: rest)).head? = .some r := h.head?_subAfter _
      cases hstop : stop r with
      | true =>
        have hdrop : ((subAfter keep body repl (r :: rest)).dropWhile fun d => !stop d) =
            subAfter keep body repl (r :: rest) := by
          revert hhead
          cases subAfter keep body repl (r :: rest) with
          | nil => exact fun _ => rfl
          | cons d l =>
            intro hhead
            obtain rfl := Option.some.inj hhead
            rw [List.dropWhile_cons_of_neg (by simp [hstop])]
        rw [hdrop, ih]
        exact ⟨fun hrest => ⟨hstop, hrest⟩, And.right⟩
      | false =>
        refine iff_of_false (fun he => ?_) fun hall => ?_
        · -- what is left starts with a stop character, if with anything
          have hleft : (subAfter keep body repl
              ((subAfter keep body repl (r :: rest)).dropWhile fun d => !stop d)).head? = _ :=
            h.head?_subAfter _
          rw [he, hhead] at hleft
          have hnot := List.head?_dropWhile_not (fun d => !stop d)
            (subAfter keep body repl (r :: rest))
          rw [← hleft] at hnot
          simp [hstop] at hnot
        · have hr : stop r = true := hall.1
          rw [hstop] at hr
          cases hr
  | miss c s hm ih =>
    rw [h.subAfter_of_none hm, h.subAfter_of_none (h.firstMatch_miss hm), List.cons_inj_right, ih,
      h.pieces_of_none hm]
    rfl

end Replaces

end Aidars.Pattern
