/-!
# Binary floating-point numbers

Values of the interchange formats binary32 and binary64, kept exactly. A finite value is a sign, a
mantissa and a power of two; the mantissa is odd, or zero with exponent zero, so a value has one
representation and is the same value in every format that can hold it. An operation computes the
exact result and rounds it once, to the nearest value of a format, a tie going to the even
mantissa.
-/

namespace CompiledViews

/-- A floating-point value. The finite one is `mantissa * 2 ^ exponent` with its sign. -/
inductive Binary where
  | finite (negative : Bool) (mantissa : Nat) (exponent : Int)
  | infinite (negative : Bool)
  | nan
deriving DecidableEq, Repr

namespace Binary

/-- A format: the bits of a mantissa, and the exponents of its least and its greatest mantissa
bit. -/
structure Format where
  precision : Nat
  leastBit : Int
  greatestBit : Int

/-- The format of single precision. -/
def Format.single : Format := ⟨24, -149, 127⟩

def Format.double : Format := ⟨53, -1074, 1023⟩

def zero (negative : Bool) : Binary := finite negative 0 0

/-- The value `mantissa * 2 ^ exponent`, whose mantissa is halved at most `halvings` times. -/
def ofEven (negative : Bool) : Nat → Nat → Int → Binary
  | 0, mantissa, exponent => finite negative mantissa exponent
  | halvings + 1, mantissa, exponent =>
    if mantissa % 2 = 0 then ofEven negative halvings (mantissa / 2) (exponent + 1)
    else finite negative mantissa exponent

def ofParts (negative : Bool) (mantissa : Nat) (exponent : Int) : Binary :=
  if mantissa = 0 then zero negative else ofEven negative mantissa.log2 mantissa exponent

/-- The quotient rounded to the nearest whole number, a tie to the even one. -/
def divideEven (numerator denominator : Nat) : Nat :=
  let quotient := numerator / denominator
  let twice := 2 * (numerator % denominator)
  if twice < denominator then quotient
  else if denominator < twice then quotient + 1
  else quotient + quotient % 2

/-- A fraction multiplied by a power of two. -/
def shift (numerator denominator : Nat) (exponent : Int) : Nat × Nat :=
  (numerator * Nat.pow 2 exponent.toNat, denominator * Nat.pow 2 (-exponent).toNat)

/-- The greatest power of two that is at most a positive fraction, by its exponent. -/
def leadingBit (numerator denominator : Nat) : Int :=
  let guess : Int := (numerator.log2 : Int) - denominator.log2
  let (scaled, unit) := shift numerator denominator (-guess)
  if unit ≤ scaled then guess else guess - 1

/-- The value of a format that is nearest to `numerator / denominator * 2 ^ exponent`. -/
def round (format : Format) (negative : Bool) (numerator denominator : Nat) (exponent : Int) :
    Binary :=
  if numerator = 0 then zero negative
  else
    let leading := leadingBit numerator denominator + exponent
    let lastBit := max format.leastBit (leading - format.precision + 1)
    let (scaled, unit) := shift numerator denominator (exponent - lastBit)
    let mantissa := divideEven scaled unit
    if format.greatestBit < (mantissa.log2 : Int) + lastBit then infinite negative
    else ofParts negative mantissa lastBit

/-- Whether a format holds a value. -/
def fits (format : Format) : Binary → Bool
  | finite _ mantissa exponent =>
    decide (mantissa = 0) ||
      (decide (mantissa.log2 < format.precision) && decide (format.leastBit ≤ exponent) &&
        decide ((mantissa.log2 : Int) + exponent ≤ format.greatestBit))
  | _ => true

/-- The value of a format that is nearest to a value. -/
def narrow (format : Format) (value : Binary) : Binary :=
  if fits format value then value
  else
    match value with
    | finite negative mantissa exponent => round format negative mantissa 1 exponent
    | other => other

/-- The value of a format that is nearest to a whole number. -/
def ofNat (format : Format) (number : Nat) : Binary := round format false number 1 0

/-- The value with the other sign. -/
def negate : Binary → Binary
  | finite negative mantissa exponent => finite (!negative) mantissa exponent
  | infinite negative => infinite (!negative)
  | nan => nan

/-- The rounded quotient of two finite values, the second one not zero. -/
def divide (format : Format) : Binary → Binary → Binary
  | finite negative mantissa exponent, finite negative' mantissa' exponent' =>
    if mantissa' = 0 then nan
    else round format (negative != negative') mantissa mantissa' (exponent - exponent')
  | _, _ => nan

/-- The rounded product of two finite values. -/
def multiply (format : Format) : Binary → Binary → Binary
  | finite negative mantissa exponent, finite negative' mantissa' exponent' =>
    round format (negative != negative') (mantissa * mantissa') 1 (exponent + exponent')
  | _, _ => nan

/-- The whole number nearest to a value, a tie away from zero; zero for what is below, and no
limit above. -/
def toNatRounded : Binary → Nat
  | finite false mantissa exponent =>
    let (scaled, unit) := shift mantissa 1 exponent
    (2 * scaled + unit) / (2 * unit)
  | _ => 0

/-- The mantissa and exponent of a positive value in a format: the mantissa has all the bits that
the format allows. -/
def aligned (format : Format) (mantissa : Nat) (exponent : Int) : Nat × Int :=
  let lastBit := max format.leastBit ((mantissa.log2 : Int) + exponent - format.precision + 1)
  (mantissa * Nat.pow 2 (exponent - lastBit).toNat, lastBit)

/-- The bits of a value of single precision. -/
def toBits (value : Binary) : Nat :=
  let signed (negative : Bool) (bits : Nat) := if negative then Nat.pow 2 31 + bits else bits
  match value with
  | finite negative mantissa exponent =>
    if mantissa = 0 then signed negative 0
    else
      let (fraction, lastBit) := aligned .single mantissa exponent
      signed negative ((lastBit + 149).toNat * Nat.pow 2 23 + fraction)
  | infinite negative => signed negative (255 * Nat.pow 2 23)
  | nan => 255 * Nat.pow 2 23 + Nat.pow 2 22

/-- The value of single precision with the given bits. -/
def ofBits (bits : Nat) : Binary :=
  let negative := decide (Nat.pow 2 31 ≤ bits)
  let biased : Nat := bits / Nat.pow 2 23 % 256
  let fraction : Nat := bits % Nat.pow 2 23
  if biased = 255 then if fraction = 0 then infinite negative else nan
  else if biased = 0 then ofParts negative fraction (-149)
  else ofParts negative (Nat.pow 2 23 + fraction) ((biased : Int) - 150)

end Binary

end CompiledViews
