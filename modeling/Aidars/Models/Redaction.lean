import Aidars.Foundations.Codec
import Aidars.Foundations.Pattern
import Aidars.Models.Validation

/-!
# Redaction of workload parameters

`redactWorkloadParameters` rewrites a tree of parameters before it is stored: the value of a
credential-shaped key becomes a marker, and in every text the user information of a URL and the
value of an inline credential argument do. The patterns ignore case, which for the letters `i`,
`k` and `s` includes four characters outside ASCII (`foldCase`).

Redaction and the encoding of floats are the two things that storing parameters does to them.
`encodeAny_redact_eq_iff` says which trees they leave alone: those that are `Storable`.
-/

namespace Aidars

/-- What stands in place of a redacted value. -/
def REDACTED_PARAMETER_VALUE : String := "[REDACTED]"

/-- The folding of a pattern that ignores case, onto the lowercase ASCII letters. -/
def foldCase (c : Char) : Char :=
  if c = 'İ' ∨ c = 'ı' then 'i'
  else if c = 'ſ' then 's'
  else if c = Char.ofNat 0x212a then 'k'
  else c.toLower

/-- The class `[a-z0-9]`, ignoring case. -/
def isAlnum (c : Char) : Bool :=
  let c := foldCase c
  isDecimal c || ('a' ≤ c && c ≤ 'z')

namespace Pattern

/-- A word, ignoring case. -/
def word (s : String) : Pattern := text foldCase s.toList

/-- Two words with an optional `-` or `_` between them. -/
def joined (s t : String) : Pattern :=
  seq (word s) (seq (opt (one fun c => c = '_' || c = '-')) (word t))

/-- The key pattern: a credential word between characters that are no letters or digits. -/
def sensitiveParameterKey : Pattern :=
  let boundary := one fun c => !isAlnum c
  seq (alt atStart boundary) <| seq
    (anyOf [word "secret", word "password", word "passwd", word "token", word "credential",
      word "authorization", joined "api" "key", joined "access" "key", joined "private" "key"])
    (alt atEnd boundary)

/-- The names of inline credential arguments. -/
def commandWord : Pattern :=
  anyOf [word "password", word "passwd", word "token", word "secret", joined "api" "key",
    joined "access" "key", word "authorization"]

/-- The part of an inline credential that is kept: an option with its separator, or an
assignment. -/
def commandPrefix : Pattern :=
  let eq := one (· = '=')
  let dash := one (· = '-')
  alt (seq dash (seq (opt dash) (seq commandWord (alt eq (some isSpace)))))
    (seq commandWord (seq (many isSpace) (seq eq (many isSpace))))

/-- The value of an inline credential: a quoted text, or all up to a separator. -/
def commandValue : Pattern :=
  let quoted := fun q => seq (one (· = q)) (seq (many (· ≠ q)) (one (· = q)))
  anyOf [quoted '"', quoted '\'',
    some fun c => !(isSpace c || c = ';' || c = '&' || c = '|')]

/-- The scheme of a URL. -/
def urlScheme : Pattern := seq (word "http") (seq (opt (word "s")) (word "://"))

/-- The user information of a URL. -/
def urlUserinfo : Pattern :=
  let part := some fun c => !(c = '/' || c = '@' || isSpace c)
  seq part (seq (one (· = ':')) (seq part (one (· = '@'))))

end Pattern

open Pattern

/-- The key is credential-shaped; a dot counts as a separator. -/
def isSensitiveKey (key : String) : Bool :=
  search sensitiveParameterKey (key.toList.map fun c => if c = '.' then '_' else c)

/-- Redact a text. -/
def redactText (value : String) : String :=
  let value := subAfter urlScheme urlUserinfo (REDACTED_PARAMETER_VALUE ++ "@").toList value.toList
  String.ofList (subAfter commandPrefix commandValue REDACTED_PARAMETER_VALUE.toList value)

mutual

/-- Redact a value that is not under a key. -/
def redactValue : Json → Json
  | .obj entries => .obj (redactEntries entries)
  | .arr items => .arr (redactItems items)
  | .str s => .str (redactText s)
  | j => j

/-- Redact the items of a list. -/
def redactItems : List Json → List Json
  | [] => []
  | j :: l => redactValue j :: redactItems l

/-- Redact the entries of an object: a credential-shaped key hides its whole value. -/
def redactEntries : List (String × Json) → List (String × Json)
  | [] => []
  | (k, j) :: l =>
    (k, if isSensitiveKey k then .str REDACTED_PARAMETER_VALUE else redactValue j) ::
      redactEntries l

end

/-- Redact a tree of parameters. -/
def redactWorkloadParameters (parameters : Dict String Json) : Dict String Json :=
  parameters.mapValues fun k j =>
    if isSensitiveKey k then .str REDACTED_PARAMETER_VALUE else redactValue j

/-! ## What storing leaves alone -/

mutual

/-- Storing leaves the value alone: no credential-shaped key with a value other than the marker,
no text that redaction rewrites, no float that is not finite. -/
def storable : Json → Bool
  | .obj entries => storableEntries entries
  | .arr items => storableItems items
  | .str s => redactText s = s
  | .float x => x.isFinite
  | .null | .bool _ | .int _ => true

/-- Storing leaves the items alone. -/
def storableItems : List Json → Bool
  | [] => true
  | j :: l => storable j && storableItems l

/-- Storing leaves the entries alone. -/
def storableEntries : List (String × Json) → Bool
  | [] => true
  | (k, j) :: l =>
    (if isSensitiveKey k then j = .str REDACTED_PARAMETER_VALUE else storable j) &&
      storableEntries l

end

/-- Storing leaves the parameters alone. -/
def StorableParameters (parameters : Dict String Json) : Prop :=
  storableEntries parameters.entries = true

instance (p : Dict String Json) : Decidable (StorableParameters p) :=
  inferInstanceAs (Decidable (_ = true))

mutual

theorem encodeAny_redactValue_eq_iff (j : Json) :
    (redactValue j).encodeAny = j ↔ storable j = true := by
  cases j with
  | null => simp [redactValue, Json.encodeAny, storable]
  | bool b => simp [redactValue, Json.encodeAny, storable]
  | int n => simp [redactValue, Json.encodeAny, storable]
  | float x => cases x <;> simp [redactValue, Json.encodeAny, storable, PyFloat.isFinite]
  | str s => simp [redactValue, Json.encodeAny, storable]
  | arr items =>
    simp only [redactValue, Json.encodeAny, storable, Json.arr.injEq]
    exact encodeAny_redactItems_eq_iff items
  | obj entries =>
    simp only [redactValue, Json.encodeAny, storable, Json.obj.injEq]
    exact encodeAny_redactEntries_eq_iff entries

theorem encodeAny_redactItems_eq_iff (l : List Json) :
    Json.encodeAnyItems (redactItems l) = l ↔ storableItems l = true := by
  cases l with
  | nil => simp [redactItems, Json.encodeAnyItems, storableItems]
  | cons j l =>
    simp only [redactItems, Json.encodeAnyItems, storableItems, List.cons.injEq, Bool.and_eq_true]
    rw [encodeAny_redactValue_eq_iff j, encodeAny_redactItems_eq_iff l]

theorem encodeAny_redactEntries_eq_iff (l : List (String × Json)) :
    Json.encodeAnyEntries (redactEntries l) = l ↔ storableEntries l = true := by
  cases l with
  | nil => simp [redactEntries, Json.encodeAnyEntries, storableEntries]
  | cons e l =>
    obtain ⟨k, j⟩ := e
    simp only [redactEntries, Json.encodeAnyEntries, storableEntries, List.cons.injEq,
      Prod.mk.injEq, true_and, Bool.and_eq_true]
    rw [encodeAny_redactEntries_eq_iff l]
    refine and_congr_left fun _ => ?_
    split_ifs with hk
    · rw [Json.encodeAny, decide_eq_true_iff, eq_comm]
    · exact encodeAny_redactValue_eq_iff j

end

end Aidars
