import CompiledViews.Number.Binary
import CompiledViews.Text.Basic

/-!
# Shortest decimal text

The text of a floating-point number has the fewest significant digits among the decimals that
round to it, and of those it is the nearest one. Where the text leaves positional notation is laid
down by a `DecimalLayout`.
-/

namespace CompiledViews

namespace Binary

/-- The decimals that round to a positive number: `value` is the number itself, `below` and
`above` are the ends of the interval, all of them times `unit`, and the ends belong to it if
`closed`. -/
structure Neighbourhood where
  value : Nat
  below : Nat
  above : Nat
  unit : Nat
  closed : Bool

/-- The neighbourhood of `mantissa * 2 ^ exponent` in a format. The number below a power of two is
half as far away as the one above. -/
def neighbourhood (format : Format) (mantissa : Nat) (exponent : Int) : Neighbourhood :=
  let (fraction, lastBit) := aligned format mantissa exponent
  let narrowBelow := fraction = Nat.pow 2 (format.precision - 1) ∧ format.leastBit < lastBit
  let (value, unit) := shift (4 * fraction) 4 lastBit
  let (step, _) := shift 1 4 lastBit
  { value, unit
    below := value - (if narrowBelow then step else 2 * step)
    above := value + 2 * step
    closed := fraction % 2 = 0 }

def Neighbourhood.contains (around : Neighbourhood) (digits : Nat) (power : Int) : Bool :=
  let point := digits * Nat.pow 10 power.toNat * around.unit
  let scale := Nat.pow 10 (-power).toNat
  if around.closed then around.below * scale ≤ point && point ≤ around.above * scale
  else around.below * scale < point && point < around.above * scale

/-- The number of decimal digits of a positive fraction before the point; below one, zero or less
by the zeros after it. The second argument bounds those zeros. -/
def decimalPlaces (numerator denominator : Nat) : Nat → Int
  | 0 => 0
  | zeros + 1 =>
    if denominator ≤ numerator then (Nat.toDigits 10 (numerator / denominator)).length
    else decimalPlaces (numerator * 10) denominator zeros - 1

/-- The nearer of the two decimals around the number that have their last digit at `power`, if
one of them lies in the neighbourhood; of two equally near ones the even one. -/
def Neighbourhood.decimalAt? (around : Neighbourhood) (power : Int) : Option Nat :=
  let numerator := around.value * Nat.pow 10 (-power).toNat
  let denominator := around.unit * Nat.pow 10 power.toNat
  let lower := numerator / denominator
  let nearest := divideEven numerator denominator
  let other := if nearest = lower then lower + 1 else lower
  if around.contains nearest power then some nearest
  else if around.contains other power then some other
  else none

/-- The shortest decimal in a neighbourhood, where `places` is the number of digits before the
point and `left` how many more digits may be tried. -/
def Neighbourhood.shortest (around : Neighbourhood) (places : Int) : Nat → Nat → Nat × Int
  | _, 0 => (around.value / around.unit, 0)
  | length, left + 1 =>
    let power := places - length
    match around.decimalAt? power with
    | some digits => (digits, power)
    | none => around.shortest places (length + 1) left

/-- A positive whole number without the zeros at its end, and how many there were; at most
`limit`. -/
def withoutZeros : Nat → Nat → Int → Nat × Int
  | 0, digits, power => (digits, power)
  | limit + 1, digits, power =>
    if digits % 10 = 0 then withoutZeros limit (digits / 10) (power + 1) else (digits, power)

/-- The digits and the power of ten of the shortest decimal of a positive number. -/
def shortestDecimal (format : Format) (mantissa : Nat) (exponent : Int) : Nat × Int :=
  let around := neighbourhood format mantissa exponent
  let places := decimalPlaces around.value around.unit 400
  let (digits, power) := around.shortest places 1 20
  withoutZeros 20 digits power

end Binary

/-- Where positional notation ends: the greatest number of digits before the point, and the
greatest number of zeros right after it. -/
structure DecimalLayout where
  maxPlaces : Int
  maxZeros : Int

namespace DecimalLayout

/-- A single-precision number has up to thirteen digits before the point. -/
def single : DecimalLayout := ⟨13, 5⟩

/-- A double-precision number has up to sixteen digits before the point. -/
def double : DecimalLayout := ⟨16, 4⟩

/-- An exponent as text: its sign, also a plus, and its digits. -/
def exponentText (exponent : Int) : Text :=
  (if exponent < 0 then "-" else "+") ++ Text.ofNat exponent.natAbs

/-- The text of `digits * 10 ^ power`, which always has a point or an exponent. -/
def text (layout : DecimalLayout) (digits : Nat) (power : Int) : Text :=
  let shown := Text.ofNat digits
  let places : Int := shown.length + power
  let zeros (count : Int) : Text := List.replicate count.toNat '0'
  if 0 ≤ power ∧ places ≤ layout.maxPlaces then shown ++ zeros power ++ ".0"
  else if 0 < places ∧ places ≤ layout.maxPlaces then
    shown.take places.toNat ++ "." ++ shown.drop places.toNat
  else if -layout.maxZeros ≤ places ∧ places ≤ 0 then "0." ++ zeros (-places) ++ shown
  else
    let fraction : Text := if shown.length = 1 then [] else "." ++ shown.drop 1
    shown.take 1 ++ fraction ++ "e" ++ exponentText (places - 1)

end DecimalLayout

/-- The text of a finite floating-point number of a format. -/
def Binary.text? (format : Binary.Format) (layout : DecimalLayout) : Binary → Option Text
  | .finite negative mantissa exponent =>
    let magnitude : Text :=
      if mantissa = 0 then "0.0"
      else
        let (digits, power) := shortestDecimal format mantissa exponent
        layout.text digits power
    some (if negative then "-" ++ magnitude else magnitude)
  | _ => none

end CompiledViews
