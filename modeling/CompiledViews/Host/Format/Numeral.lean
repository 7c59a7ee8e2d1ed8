import CompiledViews.Host.Format.Escape
import CompiledViews.Number.Binary

/-!
# Numerals in arguments

Numbers as programs read them from their arguments: a sign, a mark of the base, and digits as far as
they go. What follows them is left.
-/

namespace CompiledViews.Host

/-- A number at the beginning of a text, what is left of that, and whether there is a number. -/
structure Numeral (α : Type) where
  value : α
  rest : Text
  isNumber : Bool

namespace Numeral

/-- Whether a character is blank before a number. -/
def isSpace (character : Char) : Bool :=
  character == ' ' || ('\t' ≤ character && character ≤ '\r')

/-- Whether a number is negative, and what follows its sign. -/
def signed (text : Text) : Bool × Text :=
  match text with
  | '-' :: rest => (true, rest)
  | '+' :: rest => (false, rest)
  | _ => (false, text)

/-- The digits of a base at the beginning of a text. -/
def digitsOf (base : Nat) (text : Text) : Text :=
  text.takeWhile fun digit => (Escape.hexValue? digit).any (· < base)

/-- The base of a numeral, and where its digits begin. -/
def based (text : Text) : Nat × Text :=
  match text with
  | '0' :: mark :: digit :: rest =>
    if (mark == 'x' || mark == 'X') && (Escape.hexValue? digit).isSome then (16, digit :: rest)
    else (8, text)
  | '0' :: _ => (8, text)
  | _ => (10, text)

/-- The whole number at the beginning of a text, in decimal, octal or hexadecimal notation. -/
def whole (text : Text) : Numeral Int :=
  let (isNegative, unsigned) := signed (text.dropWhile isSpace)
  let (base, start) := based unsigned
  let digits := digitsOf base start
  let value : Int := Escape.spelled base digits
  if digits = [] then ⟨0, text, false⟩
  else ⟨if isNegative then -value else value, start.drop digits.length, true⟩

/-- The exponent at the beginning of a text, and what is left. -/
def exponent (text : Text) : Int × Text :=
  match text with
  | mark :: rest =>
    let (isNegative, unsigned) := signed rest
    let digits := digitsOf 10 unsigned
    if (mark == 'e' || mark == 'E') && digits != [] then
      let value : Int := Escape.spelled 10 digits
      (if isNegative then -value else value, unsigned.drop digits.length)
    else (0, text)
  | [] => (0, [])

/-- How far exponents count. -/
def greatestExponent : Nat := 5000

/-- The number of a format that decimal digits and a power of ten make. -/
def decimal (format : Binary.Format) (isNegative : Bool) (digits : Nat) (power : Int) : Binary :=
  let power := max (-(greatestExponent : Int)) (min greatestExponent power)
  Binary.round format isNegative (digits * Nat.pow 10 power.toNat) (Nat.pow 10 (-power).toNat) 0

/-- The number with a fraction at the beginning of a text. -/
def fractional (format : Binary.Format) (text : Text) : Numeral Binary :=
  let (isNegative, unsigned) := signed (text.dropWhile isSpace)
  let lower := unsigned.map Char.toLower
  let named (name : Text) (value : Binary) : Option (Numeral Binary) :=
    if Text.startsWith lower name then some ⟨value, unsigned.drop name.length, true⟩ else none
  match named "infinity" (.infinite isNegative) <|> named "inf" (.infinite isNegative) <|>
      named "nan" .nan with
  | some numeral => numeral
  | none =>
    match based unsigned with
    | (16, start) =>
      let digits := digitsOf 16 start
      ⟨Binary.round format isNegative (Escape.spelled 16 digits) 1 0,
        start.drop digits.length, true⟩
    | _ =>
      let wholeDigits := digitsOf 10 unsigned
      let afterWhole := unsigned.drop wholeDigits.length
      let fraction := match afterWhole with
        | '.' :: rest => digitsOf 10 rest
        | _ => []
      let afterFraction :=
        if afterWhole.head? = some '.' ∧ wholeDigits ++ fraction ≠ [] then
          afterWhole.drop (fraction.length + 1)
        else afterWhole
      if wholeDigits ++ fraction = [] then ⟨Binary.zero false, text, false⟩
      else
        let (power, rest) := exponent afterFraction
        ⟨decimal format isNegative (Escape.spelled 10 (wholeDigits ++ fraction))
          (power - fraction.length), rest, true⟩

end Numeral

end CompiledViews.Host
