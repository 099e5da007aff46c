import Mathlib.Data.List.Infix
import Mathlib.Tactic.Common

/-!
# Patterns with ordered matches

A fragment of regular expressions as a backtracking matcher reads them: character classes, anchors,
sequence, ordered choice and greedy repetition of a class. `ends p n s` lists the rests of the text
after the matches of `p` at the front of `s`, in the order in which backtracking tries them, where
`n` is the length of the whole text; the first of them is the match. `search` looks for a match
anywhere, and `subAfter` replaces, from left to right, what a second pattern matches after a first.

A text in which nothing matches is left as it is (`subAfter_of_forall_firstMatch`).
-/

namespace Aidars

/-- Patterns. -/
inductive Pattern
  | empty
  | one (p : Char → Bool)
  | atStart
  | atEnd
  | seq (a b : Pattern)
  | alt (a b : Pattern)
  | many (p : Char → Bool)

namespace Pattern

/-- The rests after matching a repeated class, the longest match first. -/
def manyEnds (p : Char → Bool) : List Char → List (List Char)
  | [] => [[]]
  | c :: s => if p c then manyEnds p s ++ [c :: s] else [c :: s]

/-- The rests after the matches at the front of `s`, in the order of preference. The end anchor
matches at the end and before a final line feed. -/
def ends (n : ℕ) : Pattern → List Char → List (List Char)
  | empty, s => [s]
  | one _, [] => []
  | one p, c :: s => if p c then [s] else []
  | atStart, s => if s.length = n then [s] else []
  | atEnd, s => if s = [] ∨ s = ['\n'] then [s] else []
  | seq a b, s => (ends n a s).flatMap (ends n b)
  | alt a b, s => ends n a s ++ ends n b s
  | many p, s => manyEnds p s

/-- At most one occurrence, preferably one. -/
def opt (a : Pattern) : Pattern := alt a empty

/-- At least one character of a class. -/
def some (p : Char → Bool) : Pattern := seq (one p) (many p)

/-- A text up to a folding of its characters. -/
def text (fold : Char → Char) : List Char → Pattern
  | [] => empty
  | c :: s => seq (one fun x => fold x = c) (text fold s)

/-- The first of several patterns that matches. -/
def anyOf : List Pattern → Pattern
  | [] => empty
  | [a] => a
  | a :: b :: l => alt a (anyOf (b :: l))

/-- The pattern matches somewhere. -/
def search (a : Pattern) (s : List Char) : Bool := s.tails.any fun t => ends s.length a t ≠ []

variable (keep body : Pattern)

/-- The match of `keep` followed by `body` at the front of `s`: the rests after each of them. -/
def firstMatch (n : ℕ) (s : List Char) : Option (List Char × List Char) :=
  ((ends n keep s).flatMap fun mid => (ends n body mid).map fun rest => (mid, rest)).head?

/-- The scan of `subAfter`; the fuel bounds the number of characters left. -/
def subLoop (n : ℕ) (repl : List Char) : ℕ → List Char → List Char
  | 0, s => s
  | _ + 1, [] => []
  | fuel + 1, c :: s =>
    match firstMatch keep body n (c :: s) with
    | .some (mid, rest) =>
      (c :: s).take ((c :: s).length - mid.length) ++ repl ++ subLoop n repl fuel rest
    | none => c :: subLoop n repl fuel s

/-- Replace what `body` matches after `keep`, everywhere. Both together match at least one
character. -/
def subAfter (repl s : List Char) : List Char := subLoop keep body s.length repl s.length s

variable {keep body}

theorem subLoop_of_forall_firstMatch {n fuel : ℕ} {repl s : List Char}
    (h : ∀ t, t <:+ s → firstMatch keep body n t = none) :
    subLoop keep body n repl fuel s = s := by
  induction fuel generalizing s with
  | zero => rfl
  | succ fuel ih =>
    cases s with
    | nil => rfl
    | cons c s =>
      have hs := h (c :: s) (List.suffix_refl _)
      have ht := ih fun t ht => h t (ht.trans (List.suffix_cons c s))
      rw [subLoop, hs, ht]

/-- A text without a match is unchanged. -/
theorem subAfter_of_forall_firstMatch {repl s : List Char}
    (h : ∀ t, t <:+ s → firstMatch keep body s.length t = none) :
    subAfter keep body repl s = s :=
  subLoop_of_forall_firstMatch h

end Pattern

end Aidars
