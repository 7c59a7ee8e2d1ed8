import CompiledViews.Host.Format.Numeral

/-!
# Formats

A format is text with escapes and directives. It is read as pieces: bytes that are printed as they
are, and directives that each take an argument. Numbers and texts are printed with a sign, digits of
a base, a fraction, and blanks or zeros up to a width.
-/

namespace CompiledViews.Host

/-- A width or precision: not given, a number, or the number that an argument is. -/
inductive Measure where
  | absent
  | fixed (count : Nat)
  | argument
deriving DecidableEq, Repr

/-- A directive: its flags, width and precision, the letter of its conversion, and how it is
written. -/
structure Directive where
  flags : Text
  width : Measure
  precision : Measure
  letter : Char
  written : Text
deriving DecidableEq, Repr

/-- What can be wrong with a format or an argument: it is no number, it goes on after a number, the
number is too large, a directive does not exist or has no letter, or an escape has no digits. -/
inductive FormatProblem where
  | noNumber (argument : Text)
  | unfinishedNumber (argument : Text)
  | outOfRange (argument : Text)
  | noDirective (written : Text)
  | noLetter
  | noDigits
deriving DecidableEq, Repr

/-- A piece of a format. -/
inductive FormatPiece where
  | literal (bytes : Bytes)
  | directive (directive : Directive)
  | ending
  | problem (problem : FormatProblem)
deriving DecidableEq, Repr

/-- Who prints: the escapes of formats and of arguments, the letters that may stand before that of a
conversion, and the precision of numbers with a fraction. -/
structure FormatStyle where
  escapes : EscapeStyle
  argumentEscapes : EscapeStyle
  sizes : Text
  numbers : Binary.Format

namespace FormatStyle

/-- The style of what shells print themselves. -/
def builtIn : FormatStyle :=
  ⟨⟨false, false, false⟩, ⟨false, true, true⟩, [], .double⟩

def program : FormatStyle :=
  ⟨⟨true, false, true⟩, ⟨true, true, true⟩, "hlLjtzq", ⟨64, -16445, 16383⟩⟩

end FormatStyle

namespace FormatPiece

def letters : Text := "bcsdiouxXaAeEfFgG"

/-- The measure at the beginning of a text, and what is left. -/
def measure (text : Text) : Measure × Text :=
  match text with
  | '*' :: rest => (.argument, rest)
  | _ =>
    let digits := text.takeWhile Char.isDigit
    if digits = [] then (.absent, text)
    else (.fixed (Escape.spelled 10 digits), text.drop digits.length)

/-- The directive that follows a percent sign, and what is left. -/
def readDirective (style : FormatStyle) (text : Text) : FormatPiece × Text :=
  let isFlag (character : Char) : Bool := ("#-+ 0" : Text).contains character
  let (width, afterWidth) := measure (text.dropWhile isFlag)
  let (precision, afterPrecision) : Measure × Text :=
    match afterWidth with
    | '.' :: rest =>
      let (found, left) := measure rest
      (if found = .absent then .fixed 0 else found, left)
    | _ => (.absent, afterWidth)
  let atLetter := afterPrecision.dropWhile style.sizes.contains
  match atLetter with
  | [] => (problem .noLetter, [])
  | letter :: rest =>
    let written := '%' :: text.take (text.length - rest.length)
    if letters.contains letter then
      (directive ⟨text.takeWhile isFlag, width, precision, letter, written⟩, rest)
    else (problem (.noDirective written), rest)

def readFrom (style : FormatStyle) : (limit : Nat) → Text → List FormatPiece
  | 0, _ => []
  | _, [] => []
  | limit + 1, '%' :: '%' :: rest => literal [0x25] :: readFrom style limit rest
  | limit + 1, '%' :: rest =>
    let (piece, left) := readDirective style rest
    piece :: readFrom style limit left
  | limit + 1, '\\' :: rest =>
    match Escape.read style.escapes rest with
    | (.bytes printed, left) => literal printed :: readFrom style limit left
    | (.ending, _) => [ending]
    | (.missingDigits, _) => [problem .noDigits]
  | limit + 1, character :: rest => literal (charBytes character) :: readFrom style limit rest

def read (style : FormatStyle) (format : Text) : List FormatPiece :=
  readFrom style (format.length + 1) format

end FormatPiece

/-- The flags of a directive with its measures as numbers. -/
structure Layout where
  alternate : Bool
  atLeft : Bool
  plus : Bool
  blank : Bool
  zeros : Bool
  width : Nat
  precision : Option Nat
deriving DecidableEq, Repr

namespace Layout

/-- The sign of a number. -/
def sign (layout : Layout) (isNegative : Bool) : Text :=
  if isNegative then "-" else if layout.plus then "+" else if layout.blank then " " else []

/-- Bytes in a field of the width. Zeros stand between the start and the body. -/
def pad (layout : Layout) (zeros : Bool) (start body : Bytes) : Bytes :=
  let missing := layout.width - (start.length + body.length)
  if layout.atLeft then start ++ body ++ List.replicate missing 0x20
  else if zeros && layout.zeros then start ++ List.replicate missing 0x30 ++ body
  else List.replicate missing 0x20 ++ start ++ body

/-- The digits of a natural number, at least as many as the precision says. -/
def digits (layout : Layout) (base value : Nat) : Text :=
  if value = 0 ∧ layout.precision = some 0 then []
  else
    let digits := Nat.toDigits base value
    List.replicate (layout.precision.getD 0 - digits.length) '0' ++ digits

/-- A whole number with a sign. -/
def integer (layout : Layout) (value : Int) : Bytes :=
  layout.pad layout.precision.isNone (Text.utf8 (layout.sign (value < 0)))
    (Text.utf8 (layout.digits 10 value.natAbs))

/-- A natural number in the base of a letter. -/
def natural (layout : Layout) (letter : Char) (value : Nat) : Bytes :=
  let zeros := layout.precision.isNone
  match letter with
  | 'o' =>
    let digits := layout.digits 8 value
    let start : Text := if layout.alternate ∧ digits.head? ≠ some '0' then "0" else []
    layout.pad zeros [] (Text.utf8 (start ++ digits))
  | 'x' | 'X' =>
    let digits := layout.digits 16 value
    let shown := if letter = 'X' then digits.map Char.toUpper else digits
    let start : Text := if layout.alternate ∧ value ≠ 0 then ['0', letter] else []
    layout.pad zeros (Text.utf8 start) (Text.utf8 shown)
  | _ => layout.pad zeros [] (Text.utf8 (layout.digits 10 value))

/-- Text up to the precision. -/
def text (layout : Layout) (bytes : Bytes) : Bytes :=
  layout.pad false [] (match layout.precision with
    | some count => bytes.take count
    | none => bytes)

end Layout

/-! ## Fractions -/

/-- A number that is not negative, as a fraction. -/
structure Fraction where
  numerator : Nat
  denominator : Nat

namespace Fraction

/-- The fraction times a power of ten, rounded to a whole number. -/
def scaled (fraction : Fraction) (power : Int) : Nat :=
  Binary.divideEven (fraction.numerator * Nat.pow 10 power.toNat)
    (fraction.denominator * Nat.pow 10 (-power).toNat)

/-- How many more times than a count a fraction below one has to be multiplied by ten to reach it.
-/
def zerosFrom (denominator : Nat) : (limit : Nat) → Nat → Nat
  | 0, _ => 0
  | limit + 1, numerator =>
    if denominator ≤ numerator then 0 else zerosFrom denominator limit (numerator * 10) + 1

/-- The power of ten of the first digit of a fraction. -/
def leadingPower (fraction : Fraction) : Int :=
  let whole := fraction.numerator / fraction.denominator
  if fraction.numerator = 0 then 0
  else if whole = 0 then -(zerosFrom fraction.denominator 5000 fraction.numerator : Int)
  else ((Nat.toDigits 10 whole).length : Int) - 1

/-- The digits of a whole number with a point before the last `places` ones. -/
def pointed (alternate : Bool) (places value : Nat) : Text :=
  let digits := Nat.toDigits 10 value
  let all := List.replicate (places + 1 - digits.length) '0' ++ digits
  let point : Text := if places = 0 ∧ !alternate then [] else "."
  all.take (all.length - places) ++ point ++ all.drop (all.length - places)

/-- A fraction with a number of digits after the point. -/
def positional (fraction : Fraction) (alternate : Bool) (places : Nat) : Text :=
  pointed alternate places (fraction.scaled places)

/-- The digits of a fraction, one of them before the point, and the power of ten that goes with
them. -/
def leading (fraction : Fraction) (places : Nat) : Nat × Int :=
  let power := fraction.leadingPower
  let digits := fraction.scaled (places - power)
  if Nat.pow 10 (places + 1) ≤ digits then (fraction.scaled (places - power - 1), power + 1)
  else (digits, power)

/-- A power of ten as it is written. -/
def exponent (power : Int) : Text :=
  "e" ++ (if power < 0 then "-" else "+") ++
    Text.replaceChar ' ' '0' (Text.padLeft 2 (Text.ofNat power.natAbs))

/-- A fraction with one digit before the point and a number of them after it. -/
def exponential (fraction : Fraction) (alternate : Bool) (places : Nat) : Text :=
  let (digits, power) := fraction.leading places
  pointed alternate places digits ++ exponent power

/-- A text without zeros at the end of its fraction. -/
def withoutZeros (text : Text) : Text :=
  if text.contains '.' then
    let kept := (text.reverse.dropWhile (· == '0')).reverse
    if Text.endsWith kept "." then kept.dropLast else kept
  else text

/-- A fraction with a number of digits altogether, in the shorter notation. -/
def general (fraction : Fraction) (alternate : Bool) (count : Nat) : Text :=
  let count := max count 1
  let (digits, power) := fraction.leading (count - 1)
  let shorten (text : Text) : Text := if alternate then text else withoutZeros text
  if -4 ≤ power ∧ power < count then
    shorten (fraction.positional alternate (((count : Int) - 1 - power).toNat))
  else shorten (pointed alternate (count - 1) digits) ++ exponent power

end Fraction

/-- A number with a fraction, as a letter says. -/
def Layout.fractional (layout : Layout) (letter : Char) (value : Binary) : Bytes :=
  let places := layout.precision.getD 6
  let cased (text : Text) : Text := if letter.isUpper then text.map Char.toUpper else text
  let shown (isNegative zeros : Bool) (text : Text) : Bytes :=
    layout.pad zeros (Text.utf8 (layout.sign isNegative)) (Text.utf8 (cased text))
  match value with
  | .nan => shown false false "nan"
  | .infinite isNegative => shown isNegative false "inf"
  | .finite isNegative mantissa power =>
    let (numerator, denominator) := Binary.shift mantissa 1 power
    let fraction : Fraction := ⟨numerator, denominator⟩
    shown isNegative true
      (match letter.toLower with
      | 'f' => fraction.positional layout.alternate places
      | 'e' => fraction.exponential layout.alternate places
      | _ => fraction.general layout.alternate places)

end CompiledViews.Host
