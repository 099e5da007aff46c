import Aidars.Foundations.Binary64
import Aidars.Foundations.Collections

/-!
# The replay guard

The coordinator remembers for each nonce until when it is taken for a replay. A call first forgets
the nonces whose time has passed, rejects a nonce that is left, and records one that is not.

The end of a nonce's window is the sum of two doubles, which is rounded: `replay_guard` states the
law of whole histories of calls with clock readings that do not decrease with that sum, and
`replay_guard_rounds` is a nonce accepted twice although the exact window has not ended. Rejected
calls do not extend the window.
-/

namespace Aidars

/-- The nonces with the readings until which they are remembered. -/
structure ReplayGuard where
  ttl : PyFloat
  seenUntil : Dict String PyFloat := ∅

namespace ReplayGuard

/-- The float `now + ttl`, until which a nonce recorded now is remembered. -/
def expiry (ttl : PyFloat) (now : ℚ) : PyFloat := .add binary64 (.finite now) ttl

/-- Forget the nonces whose time has passed. -/
def prune (g : ReplayGuard) (now : ℚ) : ReplayGuard :=
  let expired := (g.seenUntil.entries.filter fun e => e.2.le (.finite now)).map Prod.fst
  { g with seenUntil := expired.foldl Dict.erase g.seenUntil }

/-- The nonce is fresh, and is recorded then. -/
def checkAndRecord (g : ReplayGuard) (nonce : String) (now : ℚ) : ReplayGuard × Bool :=
  let g := g.prune now
  if (g.seenUntil.get? nonce).isSome then (g, false)
  else ({ g with seenUntil := g.seenUntil.set nonce (expiry g.ttl now) }, true)

/-- A call with its answer. -/
structure Answered where
  nonce : String
  time : ℚ
  accepted : Bool
  deriving DecidableEq

/-- A guard with the calls that it has answered. -/
def answer (s : ReplayGuard × List Answered) (call : String × ℚ) : ReplayGuard × List Answered :=
  let (g, accepted) := s.1.checkAndRecord call.1 call.2
  (g, s.2 ++ [⟨call.1, call.2, accepted⟩])

/-- A new guard after calls, with their answers. -/
def answerAll (ttl : PyFloat) (calls : List (String × ℚ)) : ReplayGuard × List Answered :=
  calls.foldl answer ({ ttl }, [])

/-! ## What a call does -/

variable {g : ReplayGuard} {nonce x : String} {now later : ℚ} {e ttl : PyFloat} {as : List Answered}

theorem get?_foldl_erase (l : List String) (d : Dict String PyFloat) :
    (l.foldl Dict.erase d).get? x = if x ∈ l then none else d.get? x := by
  induction l generalizing d with
  | nil => simp
  | cons y l ih =>
    rw [List.foldl_cons, ih, Dict.get?_erase]
    by_cases hl : x ∈ l
    · simp [hl]
    · by_cases hy : x = y <;> simp [hl, hy]

/-- A nonce is left if its time has not passed. -/
theorem get?_prune : (g.prune now).seenUntil.get? x = some e ↔
    g.seenUntil.get? x = some e ∧ ¬ e.le (.finite now) := by
  have hexpired : x ∈ (g.seenUntil.entries.filter fun e => e.2.le (.finite now)).map Prod.fst ↔
      ∃ e, g.seenUntil.get? x = some e ∧ e.le (.finite now) := by
    rw [List.mem_map]
    constructor
    · rintro ⟨⟨y, e⟩, hmem, rfl⟩
      obtain ⟨hmem, he⟩ := List.mem_filter.1 hmem
      exact ⟨e, Dict.mem_entries.1 hmem, he⟩
    · rintro ⟨e, hget, he⟩
      exact ⟨(x, e), List.mem_filter.2 ⟨Dict.mem_entries.2 hget, he⟩, rfl⟩
  unfold prune
  dsimp only
  rw [get?_foldl_erase]
  split_ifs with hmem
  · obtain ⟨e', hget, he'⟩ := hexpired.1 hmem
    constructor
    · exact fun h => by cases h
    · rintro ⟨hget', hlt⟩
      obtain rfl := Option.some.inj (hget.symm.trans hget')
      exact absurd he' hlt
  · constructor
    · intro hget
      exact ⟨hget, fun he => hmem (hexpired.2 ⟨e, hget, he⟩)⟩
    · exact fun h => h.1

/-- The nonce was accepted, and its window has not ended. -/
def Taken (ttl : PyFloat) (as : List Answered) (nonce : String) (now : ℚ) : Prop :=
  ∃ a ∈ as, a.nonce = nonce ∧ a.accepted = true ∧ ¬ (expiry ttl a.time).le (.finite now)

theorem taken_append {a : Answered} : Taken ttl (as ++ [a]) x now ↔ Taken ttl as x now ∨
    a.nonce = x ∧ a.accepted = true ∧ ¬ (expiry ttl a.time).le (.finite now) := by
  simp [Taken, or_and_right, exists_or]

theorem le_later (h : e.le (.finite now)) (hle : now ≤ later) : e.le (.finite later) :=
  PyFloat.le_trans h (PyFloat.le_finite.2 hle)

/-- The guard remembers what it has accepted and will take for a replay. -/
structure Remembers (ttl : PyFloat) (g : ReplayGuard) (as : List Answered) : Prop where
  ttl_eq : g.ttl = ttl
  window : ∀ now, (∀ a ∈ as, a.time ≤ now) → ∀ x,
    (∃ e, g.seenUntil.get? x = some e ∧ ¬ e.le (.finite now)) ↔ Taken ttl as x now

namespace Remembers

theorem isSome_prune (h : Remembers ttl g as) (hpast : ∀ a ∈ as, a.time ≤ now) :
    ((g.prune now).seenUntil.get? x).isSome ↔ Taken ttl as x now := by
  rw [Option.isSome_iff_exists, ← h.window now hpast]
  exact exists_congr fun _ => get?_prune

/-- **A call accepts a nonce that is not taken**, the guard remembers it, and forgets what is taken
no more. -/
theorem checkAndRecord (h : Remembers ttl g as) (hpast : ∀ a ∈ as, a.time ≤ now) :
    ((g.checkAndRecord nonce now).2 = true ↔ ¬ Taken ttl as nonce now) ∧
      Remembers ttl (g.checkAndRecord nonce now).1
        (as ++ [⟨nonce, now, (g.checkAndRecord nonce now).2⟩]) ∧
      ∀ x, x ∈ (g.checkAndRecord nonce now).1.seenUntil.keys ↔
        Taken ttl as x now ∨ (g.checkAndRecord nonce now).2 = true ∧ nonce = x := by
  have hkeys : ∀ x, x ∈ (g.prune now).seenUntil.keys ↔ Taken ttl as x now := fun x => by
    rw [Dict.mem_keys, ← Option.isSome_iff_exists, h.isSome_prune hpast]
  -- a later call finds what is left, as far as its time has not passed by then
  have hleft : ∀ {later}, now ≤ later → ∀ {x},
      (∃ e, (g.prune now).seenUntil.get? x = some e ∧ ¬ e.le (.finite later)) ↔
        Taken ttl as x later := by
    intro later hle x
    rw [← h.window later fun a ha => (hpast a ha).trans hle]
    refine exists_congr fun e => ?_
    rw [get?_prune, and_assoc]
    exact and_congr_right fun _ => and_iff_right_of_imp fun hne hle' => hne (le_later hle' hle)
  unfold ReplayGuard.checkAndRecord
  dsimp only
  split_ifs with hsome
  · have htaken := (h.isSome_prune hpast).1 hsome
    refine ⟨by simp [htaken], ⟨h.ttl_eq, fun later hlater x => ?_⟩, fun x => by simp [hkeys]⟩
    rw [taken_append, hleft (hlater ⟨nonce, now, false⟩ (by simp))]
    simp
  · have hfree : ¬ Taken ttl as nonce now := fun ht => hsome ((h.isSome_prune hpast).2 ht)
    refine ⟨by simp [hfree], ⟨h.ttl_eq, fun later hlater x => ?_⟩, fun x => ?_⟩
    · have hle : now ≤ later := hlater ⟨nonce, now, true⟩ (by simp)
      have hgttl : (g.prune now).ttl = ttl := h.ttl_eq
      simp only [taken_append, Dict.get?_set, hgttl]
      split_ifs with hx
      · subst hx
        have hgone : ¬ Taken ttl as x later := by
          rintro ⟨a, ha, hax, hok, hne⟩
          exact hfree ⟨a, ha, hax, hok, fun hle' => hne (le_later hle' hle)⟩
        simp [hgone]
      · rw [hleft hle]
        simp [Ne.symm hx]
    · have hset : x ∈ ((g.prune now).seenUntil.set nonce (expiry (g.prune now).ttl now)).keys ↔
          x ∈ (g.prune now).seenUntil.keys ∨ nonce = x := by
        rw [Dict.mem_keys, Dict.mem_keys, Dict.get?_set]
        split_ifs with hx
        · simp [hx]
        · simp [Ne.symm hx]
      rw [hset, hkeys]
      simp

end Remembers

/-! ## Histories of calls -/

variable {calls : List (String × ℚ)} {c : String × ℚ}

theorem answerAll_append :
    answerAll ttl (calls ++ [c]) = answer (answerAll ttl calls) c := by
  simp [answerAll]

theorem map_answerAll : (answerAll ttl calls).2.map (fun a => (a.nonce, a.time)) = calls := by
  induction calls using List.reverseRecOn with
  | nil => rfl
  | append_singleton calls c ih =>
    rw [answerAll_append]
    simp [answer, ih]

theorem past_answerAll (ttl : PyFloat) (h : (calls ++ [c]).Pairwise fun c d => c.2 ≤ d.2) :
    ∀ a ∈ (answerAll ttl calls).2, a.time ≤ c.2 := by
  intro a ha
  have hmem : (a.nonce, a.time) ∈ calls := by
    have h := List.mem_map_of_mem (f := fun a => (a.nonce, a.time)) ha
    rwa [map_answerAll] at h
  exact (List.pairwise_append.1 h).2.2 _ hmem c (List.mem_singleton_self c)

theorem remembers_answerAll (hmono : calls.Pairwise fun c d => c.2 ≤ d.2) :
    Remembers ttl (answerAll ttl calls).1 (answerAll ttl calls).2 := by
  induction calls using List.reverseRecOn with
  | nil => exact ⟨rfl, fun now _ x => by simp [answerAll, Taken]⟩
  | append_singleton calls c ih =>
    rw [answerAll_append]
    exact ((ih (List.pairwise_append.1 hmono).1).checkAndRecord (past_answerAll ttl hmono)).2.1

/-- With a window that is a number, a nonce whose time has not passed is before its end. -/
theorem not_le_expiry (httl : PyFloat.lt 0 ttl) {t : ℚ} :
    ¬ (expiry ttl t).le (.finite now) ↔ (PyFloat.finite now).lt (expiry ttl t) := by
  have hnan : expiry ttl t ≠ .nan := by
    cases ttl with
    | finite q => exact binary64_ne_nan _
    | posInf => nofun
    | negInf | nan => cases httl
  cases he : expiry ttl t with
  | finite q => simp
  | posInf => exact iff_of_true nofun rfl
  | negInf => exact iff_of_false (fun h => h rfl) nofun
  | nan => exact absurd he hnan

/-- **The replay guard.** In every history of calls with readings that do not decrease, a nonce is
accepted if and only if it was not accepted before at a reading whose float sum with the window is
still ahead, and after each call the guard holds the nonces that were accepted at such a reading,
that which the call accepted, and no others. -/
theorem replay_guard (httl : PyFloat.lt 0 ttl) (hmono : calls.Pairwise fun c d => c.2 ≤ d.2) :
    (answerAll ttl calls).2.map (fun a => (a.nonce, a.time)) = calls ∧
      (∀ pre a post, (answerAll ttl calls).2 = pre ++ a :: post →
        (a.accepted = true ↔ ¬ ∃ b ∈ pre, b.nonce = a.nonce ∧ b.accepted = true ∧
          (PyFloat.finite a.time).lt (.add binary64 (.finite b.time) ttl))) ∧
      ∀ pre a, (answerAll ttl calls).2 = pre ++ [a] →
        ∀ x, x ∈ (answerAll ttl calls).1.seenUntil.keys ↔
          (∃ b ∈ pre, b.nonce = x ∧ b.accepted = true ∧
            (PyFloat.finite a.time).lt (.add binary64 (.finite b.time) ttl)) ∨
          a.accepted = true ∧ a.nonce = x := by
  have htaken : ∀ {pre x now}, Taken ttl pre x now ↔ ∃ b ∈ pre, b.nonce = x ∧ b.accepted = true ∧
      (PyFloat.finite now).lt (.add binary64 (.finite b.time) ttl) := by
    intro pre x now
    simp only [Taken, not_le_expiry httl]
    rfl
  refine ⟨map_answerAll, ?_, ?_⟩
  · induction calls using List.reverseRecOn with
    | nil => exact fun pre a post he => absurd he (by simp [answerAll])
    | append_singleton calls c ih =>
      have hfirst := (List.pairwise_append.1 hmono).1
      have hstep := (@Remembers.checkAndRecord _ c.1 c.2 ttl _ (remembers_answerAll hfirst)
        (past_answerAll ttl hmono)).1
      intro pre a post he
      rw [answerAll_append] at he
      rcases List.eq_nil_or_concat post with rfl | ⟨post, b, rfl⟩
      · obtain ⟨rfl, ha⟩ := List.append_inj' he rfl
        obtain rfl := List.cons.inj ha |>.1
        exact hstep.trans (not_congr htaken)
      · rw [List.concat_eq_append, ← List.cons_append, ← List.append_assoc] at he
        exact ih hfirst pre a post (List.append_inj' he rfl).1
  · rcases List.eq_nil_or_concat calls with rfl | ⟨calls, c, rfl⟩
    · exact fun pre a he => absurd he (by simp [answerAll])
    · rw [List.concat_eq_append] at *
      intro pre a he x
      rw [answerAll_append] at he ⊢
      obtain ⟨rfl, ha⟩ := List.append_inj' he rfl
      obtain rfl := List.cons.inj ha |>.1
      rw [← htaken]
      exact ((remembers_answerAll (List.pairwise_append.1 hmono).1).checkAndRecord
        (past_answerAll ttl hmono)).2.2 x

/-- A nonce is replayed before its window ends, and at its end. -/
theorem replay_guard_window :
    (answerAll 10 [("n", 0), ("n", 9), ("n", 10)]).2.map (·.accepted) = [true, false, true] ∧
      ∀ pre a post, (answerAll 10 [("n", 0), ("n", 9), ("n", 10)]).2 = pre ++ a :: post →
        (a.accepted = true ↔ ¬ ∃ b ∈ pre, b.nonce = a.nonce ∧ b.accepted = true ∧
          (PyFloat.finite a.time).lt (.add binary64 (.finite b.time) 10)) := by
  have hmono : [("n", (0 : ℚ)), ("n", 9), ("n", 10)].Pairwise fun c d => c.2 ≤ d.2 := by
    decide +kernel
  exact ⟨by decide +kernel, (replay_guard (by decide +kernel) hmono).2.1⟩

/-- The doubles `0.1` and `1700000000.1`: the second reading is before the end of the exact window,
and the nonce is accepted again. -/
theorem replay_guard_rounds :
    let ttl : ℚ := 3602879701896397 / 2 ^ 55
    let later : ℚ := 1700000000 + 419430 / 2 ^ 22
    (answerAll (.finite ttl) [("n", 1700000000), ("n", later)]).2.map (·.accepted) = [true, true] ∧
      later < 1700000000 + ttl := by
  decide +kernel

end ReplayGuard

end Aidars
