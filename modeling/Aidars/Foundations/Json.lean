import Mathlib.Algebra.Order.Ring.Rat
import Mathlib.Data.List.Sort
import Mathlib.Data.String.Basic

/-!
# Floats and JSON trees

`PyFloat` is a float as an exact rational, an infinity or not a number, with the comparisons of
IEEE arithmetic: every comparison with `nan` is false. `Json` is a tree of JSON values in which
integers and floats are kept apart, with decidable equality.
-/

namespace Aidars

/-- A float. -/
inductive PyFloat
  | finite (q : ℚ)
  | posInf
  | negInf
  | nan
  deriving DecidableEq

namespace PyFloat

instance (n : ℕ) : OfNat PyFloat n := ⟨.finite n⟩

instance : Inhabited PyFloat := ⟨.finite 0⟩

instance : Coe ℚ PyFloat := ⟨.finite⟩

/-- The comparison `<` of floats. -/
def lt : PyFloat → PyFloat → Bool
  | finite a, finite b => a < b
  | finite _, posInf | negInf, finite _ | negInf, posInf => true
  | _, _ => false

/-- The comparison `<=` of floats. -/
def le (a b : PyFloat) : Bool := a.lt b || (a != nan && a == b)

/-- The greatest of a list of floats, kept unless a later one is greater. -/
def maxOf (default : PyFloat) : List PyFloat → PyFloat
  | [] => default
  | x :: xs => xs.foldl (fun m y => if m.lt y then y else m) x

end PyFloat

/-- A JSON value. -/
inductive Json
  | null
  | bool (b : Bool)
  | int (n : ℤ)
  | float (x : PyFloat)
  | str (s : String)
  | arr (items : List Json)
  | obj (entries : List (String × Json))

namespace Json

instance : Inhabited Json := ⟨null⟩

mutual

/-- Decide equality of values. -/
def decEq : (a b : Json) → Decidable (a = b)
  | null, null => isTrue rfl
  | bool a, bool b => decidable_of_iff (a = b) (by simp)
  | int a, int b => decidable_of_iff (a = b) (by simp)
  | float a, float b => decidable_of_iff (a = b) (by simp)
  | str a, str b => decidable_of_iff (a = b) (by simp)
  | arr a, arr b =>
    have := decEqItems a b
    decidable_of_iff (a = b) (by simp)
  | obj a, obj b =>
    have := decEqEntries a b
    decidable_of_iff (a = b) (by simp)
  | null, bool _ | null, int _ | null, float _ | null, str _ | null, arr _ | null, obj _ =>
    isFalse nofun
  | bool _, null | bool _, int _ | bool _, float _ | bool _, str _ | bool _, arr _ | bool _,
    obj _ =>
    isFalse nofun
  | int _, null | int _, bool _ | int _, float _ | int _, str _ | int _, arr _ | int _, obj _ =>
    isFalse nofun
  | float _, null | float _, bool _ | float _, int _ | float _, str _ | float _, arr _ |
    float _, obj _ => isFalse nofun
  | str _, null | str _, bool _ | str _, int _ | str _, float _ | str _, arr _ | str _, obj _ =>
    isFalse nofun
  | arr _, null | arr _, bool _ | arr _, int _ | arr _, float _ | arr _, str _ | arr _, obj _ =>
    isFalse nofun
  | obj _, null | obj _, bool _ | obj _, int _ | obj _, float _ | obj _, str _ | obj _, arr _ =>
    isFalse nofun

/-- Decide equality of arrays. -/
def decEqItems : (a b : List Json) → Decidable (a = b)
  | [], [] => isTrue rfl
  | [], _ :: _ => isFalse nofun
  | _ :: _, [] => isFalse nofun
  | a :: as, b :: bs =>
    have := decEq a b
    have := decEqItems as bs
    decidable_of_iff (a = b ∧ as = bs) (by simp)

/-- Decide equality of objects, entry by entry. -/
def decEqEntries : (a b : List (String × Json)) → Decidable (a = b)
  | [], [] => isTrue rfl
  | [], _ :: _ => isFalse nofun
  | _ :: _, [] => isFalse nofun
  | (k, a) :: as, (l, b) :: bs =>
    have := decEq a b
    have := decEqEntries as bs
    decidable_of_iff (k = l ∧ a = b ∧ as = bs) (by simp [and_assoc])

end

instance : DecidableEq Json := decEq

mutual

/-- A value with the keys of its objects in order. -/
def sortKeys : Json → Json
  | arr items => arr (sortKeysItems items)
  | obj entries => obj ((sortKeysEntries entries).insertionSort fun a b => a.1 ≤ b.1)
  | j => j

/-- The items of an array with sorted keys. -/
def sortKeysItems : List Json → List Json
  | [] => []
  | a :: as => sortKeys a :: sortKeysItems as

/-- The entries of an object with sorted keys. -/
def sortKeysEntries : List (String × Json) → List (String × Json)
  | [] => []
  | (k, a) :: as => (k, sortKeys a) :: sortKeysEntries as

end

mutual

/-- A value up to the equality of Python: numbers are their values, Booleans among them, and the
keys of an object have no order. A NaN is written as a Boolean, which says what it is equal to. -/
def normal (nan : Bool) : Json → Json
  | null => null
  | bool b => float (if b then 1 else 0)
  | int n => float (.finite n)
  | float .nan => bool nan
  | float x => float x
  | str s => str s
  | arr items => arr (normalItems nan items)
  | obj entries => obj ((normalEntries nan entries).insertionSort fun a b => a.1 ≤ b.1)

/-- The items of an array up to equality. -/
def normalItems (nan : Bool) : List Json → List Json
  | [] => []
  | a :: as => normal nan a :: normalItems nan as

/-- The entries of an object up to equality. -/
def normalEntries (nan : Bool) : List (String × Json) → List (String × Json)
  | [] => []
  | (k, a) :: as => (k, normal nan a) :: normalEntries nan as

end

end Json

/-! ## Values in comparisons and messages -/

/-- A number as it is compared with a count; other values cannot be compared. -/
def fewerThan (n : ℕ) : Json → Except String Bool
  | .int k => .ok ((n : ℤ) < k)
  | .bool b => .ok (n < b.toNat)
  | .float x => .ok ((PyFloat.finite n).lt x)
  | .str _ => .error "'<' not supported between instances of 'int' and 'str'"
  | .arr _ => .error "'<' not supported between instances of 'int' and 'list'"
  | .obj _ => .error "'<' not supported between instances of 'int' and 'dict'"
  | .null => .ok false

/-- A number in a message. `floatRepr` writes a float. -/
def numberText (floatRepr : PyFloat → String) : Json → String
  | .int k => toString k
  | .bool b => if b then "True" else "False"
  | .float x => floatRepr x
  | _ => ""

/-- A list of texts in a message. -/
def listText (l : List String) : String :=
  "[" ++ ", ".intercalate (l.map fun s => "'" ++ s ++ "'") ++ "]"

end Aidars
