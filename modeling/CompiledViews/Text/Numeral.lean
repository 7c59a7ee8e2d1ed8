import CompiledViews.Text.CharClass

/-!
# Numerals

Numbers of thirty-two bits in decimal or hexadecimal notation. A numeral may open with a plus
sign, has at least one digit, and its digits are ASCII.
-/

namespace CompiledViews.Text

/-- One more than the largest number of thirty-two bits. -/
def wordLimit : Nat := Nat.pow 2 32

def hexDigitValue (digit : Char) : Nat :=
  if digit.isDigit then digit.toNat - 0x30
  else if 'a' ≤ digit then digit.toNat - 0x61 + 10
  else digit.toNat - 0x41 + 10

/-- The number that digits of a base spell, after `value` for the digits before them. -/
def digitsValue (base value : Nat) : Text → Nat
  | [] => value
  | digit :: digits => digitsValue base (value * base + hexDigitValue digit) digits

/-- The number below `limit` that digits spell after an optional plus sign. -/
def numeral? (base : Nat) (isDigit : Char → Bool) (limit : Nat) (text : Text) : Option Nat :=
  let digits := (after? "+" text).getD text
  let value := digitsValue base 0 digits
  if digits ≠ [] ∧ digits.all isDigit ∧ value < limit then some value else none

/-- The number of thirty-two bits in decimal notation. -/
def decimal? (text : Text) : Option Nat := numeral? 10 Char.isDigit wordLimit text

/-- The number of thirty-two bits in hexadecimal notation, with or without the mark `0x`. -/
def hexadecimal? (text : Text) : Option Nat :=
  numeral? 16 isHexDigit wordLimit ((after? "0x" text).getD text)

end CompiledViews.Text
