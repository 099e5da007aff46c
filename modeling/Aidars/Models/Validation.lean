import Mathlib.Data.List.Basic
import Mathlib.Tactic.Common

/-!
# Validation of hashes and worker identifiers

`validateSha256Hex` and `validateWorkerId` strip a string, match it against an anchored character
class and return the cleaned text. The two patterns `^[a-fA-F0-9]{64}$` and
`^[a-zA-Z0-9_-]{1,128}$` are instances of `matchRepeat`; their `$` also accepts one final line
feed, which stripping rules out.

The main results are `validateSha256Hex_isDigest`, an accepted hash is a lowercase 64-digit hex
string, and `validateSha256Hex_digest`, a digest is returned unchanged.
-/

namespace Aidars

/-- The characters that `str.isspace` accepts. -/
def isSpace (c : Char) : Bool :=
  let n := c.toNat
  (9 ≤ n && n ≤ 13) || (28 ≤ n && n ≤ 32) || n == 0x85 || n == 0xa0 || n == 0x1680 ||
    (0x2000 ≤ n && n ≤ 0x200a) || n == 0x2028 || n == 0x2029 || n == 0x202f || n == 0x205f ||
    n == 0x3000

/-- `str.strip` on characters. -/
def strip (l : List Char) : List Char :=
  ((l.dropWhile isSpace).reverse.dropWhile isSpace).reverse

/-- `str.lower`, on ASCII letters. No other character has a hexadecimal digit or a character of a
worker identifier in its lowercase form, so leaving it alone changes no answer of the patterns
below. -/
def lower (l : List Char) : List Char := l.map Char.toLower

/-- The pattern `^[p]{lo,hi}$`: `$` matches at the end and before a final line feed. -/
def matchRepeat (p : Char → Bool) (lo hi : ℕ) (l : List Char) : Bool :=
  let full := fun (m : List Char) => m.all p && lo ≤ m.length && m.length ≤ hi
  full l || (l.getLast? == some '\n' && full l.dropLast)

/-- The class `[0-9]`. -/
def isDecimal (c : Char) : Bool := '0' ≤ c && c ≤ '9'

/-- The class `[a-fA-F0-9]`. -/
def isHexDigit (c : Char) : Bool :=
  isDecimal c || ('a' ≤ c && c ≤ 'f') || ('A' ≤ c && c ≤ 'F')

/-- The class `[a-zA-Z0-9_-]`. -/
def isWorkerIdChar (c : Char) : Bool :=
  ('a' ≤ c && c ≤ 'z') || ('A' ≤ c && c ≤ 'Z') || isDecimal c || c == '_' || c == '-'

/-- A rejected input, with the text that was rejected. -/
inductive ValueError
  | sha256Format (val : String)
  | workerIdFormat (workerId : String)
  deriving DecidableEq

/-- Validate a SHA-256 digest and normalise it to lowercase. -/
def validateSha256Hex (val : String) : Except ValueError String :=
  let cleaned := lower (strip val.toList)
  if matchRepeat isHexDigit 64 64 cleaned then .ok (String.ofList cleaned)
  else .error (.sha256Format val)

/-- Validate a worker identifier and strip it. -/
def validateWorkerId (workerId : String) : Except ValueError String :=
  let cleaned := strip workerId.toList
  if matchRepeat isWorkerIdChar 1 128 cleaned then .ok (String.ofList cleaned)
  else .error (.workerIdFormat workerId)

/-- The lowercase hexadecimal digits. -/
def isLowerHexDigit (c : Char) : Bool := isDecimal c || ('a' ≤ c && c ≤ 'f')

/-- A lowercase 64-digit hex string. -/
def IsDigest (s : String) : Prop := s.toList.length = 64 ∧ ∀ c ∈ s.toList, isLowerHexDigit c = true

/-! ## Stripping -/

theorem getLast?_strip (l : List Char) {c : Char} (h : (strip l).getLast? = some c) :
    isSpace c = false := by
  rw [strip, List.getLast?_reverse] at h
  exact Bool.eq_false_iff.2 fun hc => by
    have := List.head?_dropWhile_not isSpace (l.dropWhile isSpace).reverse
    rw [h] at this
    simp [hc] at this

theorem strip_of_all_not {l : List Char} (h : ∀ c ∈ l, isSpace c = false) : strip l = l := by
  have key : ∀ m : List Char, (∀ c ∈ m, isSpace c = false) → m.dropWhile isSpace = m := by
    intro m hm
    cases m with
    | nil => rfl
    | cons c m => rw [List.dropWhile_cons, hm c (by simp)]; rfl
  rw [strip, key l h, key l.reverse (fun c hc => h c (List.mem_reverse.1 hc)), List.reverse_reverse]

/-! ## Hash digits -/

theorem char_le_iff (a b : Char) : a ≤ b ↔ a.toNat ≤ b.toNat := Iff.rfl

theorem toNat_toLower (c : Char) :
    c.toLower.toNat = if 65 ≤ c.toNat ∧ c.toNat ≤ 90 then c.toNat + 32 else c.toNat := by
  unfold Char.toLower
  have h₁ : c.val ≥ 'A'.val ↔ 65 ≤ c.toNat := Iff.rfl
  have h₂ : c.val ≤ 'Z'.val ↔ c.toNat ≤ 90 := Iff.rfl
  by_cases h : c.val ≥ 'A'.val ∧ c.val ≤ 'Z'.val
  · rw [dif_pos h, if_pos ⟨h₁.1 h.1, h₂.1 h.2⟩]
    have hc : c.val.toNat ≤ 90 := h₂.1 h.2
    show (c.val + ('a'.val - 'A'.val)).toNat = c.val.toNat + 32
    rw [UInt32.toNat_add, show ('a'.val - 'A'.val).toNat = 32 from rfl]
    omega
  · rw [dif_neg h, if_neg (by rwa [h₁, h₂] at h)]

theorem isDecimal_iff (c : Char) : isDecimal c = true ↔ 48 ≤ c.toNat ∧ c.toNat ≤ 57 := by
  simp only [isDecimal, Bool.and_eq_true, decide_eq_true_eq, char_le_iff]
  exact Iff.rfl

theorem isLowerHexDigit_iff (c : Char) : isLowerHexDigit c = true ↔
    (48 ≤ c.toNat ∧ c.toNat ≤ 57) ∨ (97 ≤ c.toNat ∧ c.toNat ≤ 102) := by
  simp only [isLowerHexDigit, Bool.or_eq_true, Bool.and_eq_true, decide_eq_true_eq, isDecimal_iff,
    char_le_iff]
  exact Iff.rfl

theorem isHexDigit_iff (c : Char) : isHexDigit c = true ↔
    (48 ≤ c.toNat ∧ c.toNat ≤ 57) ∨ (97 ≤ c.toNat ∧ c.toNat ≤ 102) ∨
      (65 ≤ c.toNat ∧ c.toNat ≤ 70) := by
  simp only [isHexDigit, Bool.or_eq_true, Bool.and_eq_true, decide_eq_true_eq, isDecimal_iff,
    char_le_iff, or_assoc]
  exact Iff.rfl

/-- A lowercased hexadecimal digit is a lowercase one. -/
theorem isLowerHexDigit_of_toLower {c : Char} (h : isHexDigit c.toLower = true) :
    isLowerHexDigit c.toLower = true := by
  rw [isHexDigit_iff] at h
  rw [isLowerHexDigit_iff]
  have := toNat_toLower c
  split_ifs at this <;> omega

theorem isHexDigit_of_isLowerHexDigit {c : Char} (h : isLowerHexDigit c = true) :
    isHexDigit c = true := by
  rw [isLowerHexDigit_iff] at h
  rw [isHexDigit_iff]
  omega

theorem isSpace_of_isLowerHexDigit {c : Char} (h : isLowerHexDigit c = true) :
    isSpace c = false := by
  rw [isLowerHexDigit_iff] at h
  simp only [isSpace, Bool.or_eq_false_iff, Bool.and_eq_false_iff, decide_eq_false_iff_not,
    beq_eq_false_iff_ne, ne_eq]
  omega

theorem toLower_of_isLowerHexDigit {c : Char} (h : isLowerHexDigit c = true) : c.toLower = c := by
  rw [isLowerHexDigit_iff] at h
  have := toNat_toLower c
  rw [if_neg (by omega)] at this
  exact Char.toNat_inj.1 this

/-! ## Anchored patterns -/

/-- On a text that does not end in a line feed the pattern matches the whole text. -/
theorem matchRepeat_iff (p : Char → Bool) (lo hi : ℕ) {l : List Char}
    (hl : l.getLast? ≠ some '\n') :
    matchRepeat p lo hi l = true ↔ (∀ c ∈ l, p c = true) ∧ lo ≤ l.length ∧ l.length ≤ hi := by
  have : (l.getLast? == some '\n') = false := by simpa using hl
  simp [matchRepeat, this, and_assoc]

theorem getLast?_lower_strip_ne (l : List Char) : (lower (strip l)).getLast? ≠ some '\n' := by
  rw [lower, List.getLast?_map]
  intro h
  obtain ⟨c, hc, he⟩ := Option.map_eq_some_iff.1 h
  have hs := getLast?_strip l hc
  -- only the line feed itself is lowercased to a line feed
  have hn : c.toNat = 10 := by
    have := toNat_toLower c
    rw [he, show ('\n' : Char).toNat = 10 from rfl] at this
    split_ifs at this <;> omega
  simp [isSpace, hn] at hs

/-- **An accepted hash is a lowercase 64-digit hex string.** -/
theorem validateSha256Hex_isDigest {val s : String} (h : validateSha256Hex val = .ok s) :
    IsDigest s := by
  unfold validateSha256Hex at h
  simp only at h
  split_ifs at h with hm
  obtain rfl := Except.ok.inj h
  obtain ⟨hp, h₁, h₂⟩ := (matchRepeat_iff _ _ _ (getLast?_lower_strip_ne _)).1 hm
  refine ⟨by rw [String.toList_ofList]; omega, fun c hc => ?_⟩
  rw [String.toList_ofList] at hc
  have := hp c hc
  obtain ⟨c₀, -, rfl⟩ := List.mem_map.1 hc
  exact isLowerHexDigit_of_toLower this

/-- **A digest is accepted and returned unchanged.** -/
theorem validateSha256Hex_digest {s : String} (h : IsDigest s) : validateSha256Hex s = .ok s := by
  obtain ⟨hlen, hd⟩ := h
  have hstrip : strip s.toList = s.toList :=
    strip_of_all_not fun c hc => isSpace_of_isLowerHexDigit (hd c hc)
  have hlower : lower s.toList = s.toList := by
    rw [lower]
    conv_rhs => rw [← List.map_id s.toList]
    exact List.map_congr_left fun c hc => toLower_of_isLowerHexDigit (hd c hc)
  have hm : matchRepeat isHexDigit 64 64 s.toList = true := by
    rw [matchRepeat_iff]
    · exact ⟨fun c hc => isHexDigit_of_isLowerHexDigit (hd c hc), by omega, by omega⟩
    · have := getLast?_lower_strip_ne s.toList
      rwa [hstrip, hlower] at this
  unfold validateSha256Hex
  simp only [hstrip, hlower, hm, if_true, String.ofList_toList]

/-- A hash that is accepted is accepted again as it is stored. -/
theorem validateSha256Hex_idem {val s : String} (h : validateSha256Hex val = .ok s) :
    validateSha256Hex s = .ok s :=
  validateSha256Hex_digest (validateSha256Hex_isDigest h)

end Aidars
