import Aidars.Models.Validation

/-!
# Decimal numbers in texts

The digits that `\d` matches are the characters with a decimal value; they come in blocks of ten.
`pyInt` reads a text of digits as `int` does: a text of more digits than the interpreter converts is
an error, where a limit of `0` is none.

The number that is read of the digits of a number is that number (`digitsValue_toDigits`).
-/

namespace Aidars

/-- The zeros of the blocks of decimal digits. -/
def decimalZeros : List ℕ :=
  [0x30, 0x660, 0x6f0, 0x7c0, 0x966, 0x9e6, 0xa66, 0xae6, 0xb66, 0xbe6, 0xc66, 0xce6, 0xd66,
   0xde6, 0xe50, 0xed0, 0xf20, 0x1040, 0x1090, 0x17e0, 0x1810, 0x1946, 0x19d0, 0x1a80, 0x1a90,
   0x1b50, 0x1bb0, 0x1c40, 0x1c50, 0xa620, 0xa8d0, 0xa900, 0xa9d0, 0xa9f0, 0xaa50, 0xabf0,
   0xff10, 0x104a0, 0x10d30, 0x11066, 0x110f0, 0x11136, 0x111d0, 0x112f0, 0x11450, 0x114d0,
   0x11650, 0x116c0, 0x11730, 0x118e0, 0x11950, 0x11c50, 0x11d50, 0x11da0, 0x16a60, 0x16ac0,
   0x16b50, 0x1d7ce, 0x1d7d8, 0x1d7e2, 0x1d7ec, 0x1d7f6, 0x1e140, 0x1e2f0, 0x1e950, 0x1fbf0]

/-- The decimal value of a character. -/
def decimalValue (c : Char) : Option ℕ :=
  (decimalZeros.find? fun z => z ≤ c.toNat && c.toNat < z + 10).map fun z => c.toNat - z

/-- The class `\d`. -/
def isDecimalDigit (c : Char) : Bool := (decimalValue c).isSome

/-- The number that a text of digits denotes. -/
def digitsValue (digits : List Char) : ℕ :=
  digits.foldl (fun n c => 10 * n + (decimalValue c).getD 0) 0

/-- The interpreter converts texts of so many digits. -/
def Converts (maxStrDigits : ℕ) (digits : List Char) : Prop :=
  maxStrDigits = 0 ∨ digits.length ≤ maxStrDigits

instance (maxStrDigits : ℕ) (digits : List Char) : Decidable (Converts maxStrDigits digits) :=
  inferInstanceAs (Decidable (_ ∨ _))

/-- `int`, on a text of digits. -/
def pyInt (maxStrDigits : ℕ) (digits : List Char) : Option ℕ :=
  if Converts maxStrDigits digits then some (digitsValue digits) else none

theorem decimalValue_of_isDigit {c : Char} (h : c.isDigit) :
    decimalValue c = some (c.toNat - 48) := by
  have hrange : 48 ≤ c.toNat ∧ c.toNat < 48 + 10 := by
    obtain ⟨hlow, hhigh⟩ := Char.isDigit_iff_toNat.1 h
    exact ⟨hlow, Nat.lt_succ_of_le hhigh⟩
  simp [decimalValue, decimalZeros, hrange]

theorem isDecimalDigit_of_isDigit {c : Char} (h : c.isDigit) : isDecimalDigit c = true := by
  simp [isDecimalDigit, decimalValue_of_isDigit h]

/-- **A number is read back from its digits.** -/
theorem digitsValue_toDigits (n : ℕ) : digitsValue (Nat.toDigits 10 n) = n := by
  have hvalue : ∀ c ∈ Nat.toDigits 10 n, (decimalValue c).getD 0 = c.toNat - '0'.toNat := by
    intro c hc
    rw [decimalValue_of_isDigit (Nat.isDigit_of_mem_toDigits (by omega) (by omega) hc)]
    rfl
  calc digitsValue (Nat.toDigits 10 n) = Nat.ofDigitChars 10 (Nat.toDigits 10 n) 0 := by
        rw [Nat.ofDigitChars_eq_foldl, digitsValue]
        exact List.foldl_ext _ _ _ fun m c hc => by rw [hvalue c hc]
    _ = n := Nat.ofDigitChars_ten_toDigits

/-- The digits at the front of a text, up to a character that is none. -/
theorem span_digits {digits : List Char} (rest : List Char) {c : Char}
    (hdigits : ∀ d ∈ digits, isDecimalDigit d = true) (hc : isDecimalDigit c = false) :
    (digits ++ c :: rest).takeWhile isDecimalDigit = digits ∧
      (digits ++ c :: rest).dropWhile isDecimalDigit = c :: rest := by
  induction digits with
  | nil => simp [hc]
  | cons d digits ih =>
    obtain ⟨hd, hrest⟩ := List.forall_mem_cons.1 hdigits
    obtain ⟨htake, hdrop⟩ := ih hrest
    simp [hd, htake, hdrop]

end Aidars
