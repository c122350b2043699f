/-!
# Decimal numerals

Numbers are written in decimal without leading zeros, negative ones after a minus sign.
`value_digits` and `signedValue_signed` say that a numeral is read back as the number it was
written for.
-/

set_option autoImplicit false

namespace TapeMachine.Text

/-- The decimal digits of a number. -/
def digits (number : Nat) : List Char := Nat.toDigits 10 number

/-- The number that a run of decimal digits stands for. -/
def value (digits : List Char) : Nat := Nat.ofDigitChars 10 digits 0

/-- The decimal numeral of an integer. -/
def signed (number : Int) : List Char :=
  if number < 0 then '-' :: digits number.natAbs else digits number.natAbs

/-- The integer that a run of digits stands for, negative after a minus sign. -/
def signedValue : List Char → Int
  | '-' :: digits => -(value digits : Int)
  | digits => value digits

@[simp]
theorem value_digits (number : Nat) : value (digits number) = number :=
  Nat.ofDigitChars_toDigits (by decide) (by decide)

theorem isDigit_of_mem_digits {number : Nat} {character : Char}
    (hcharacter : character ∈ digits number) : character.isDigit = true :=
  Nat.isDigit_of_mem_toDigits (by decide) (by decide) hcharacter

private theorem signedValue_of_forall_isDigit {text : List Char}
    (hdigits : ∀ c ∈ text, c.isDigit = true) : signedValue text = value text := by
  unfold signedValue
  split
  · next rest =>
    have hminus := hdigits '-' (by simp)
    exact absurd hminus (by decide)
  · rfl

@[simp]
theorem signedValue_signed (number : Int) : signedValue (signed number) = number := by
  unfold signed
  split
  · next hneg =>
    simp only [signedValue, value_digits]
    omega
  · next hnonneg =>
    rw [signedValue_of_forall_isDigit fun _ ↦ isDigit_of_mem_digits, value_digits]
    omega

end TapeMachine.Text
