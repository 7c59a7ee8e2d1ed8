import CompiledViews.Json.Basic

/-!
# Numbers in JSON text

A whole number below `2 ^ 64` is read exactly, and so is a negative one down to `-2 ^ 63`. Any other
number is a floating-point one: its digits, as far as they fit into sixty-four bits, are multiplied
or divided by a power of ten in double precision.
-/

namespace CompiledViews.Json

/-- Why a text is no JSON of the wanted kind: it breaks the grammar, it ends inside a value, or a
value is not of the wanted type. -/
inductive ReadError where
  | malformed
  | endOfText
  | mismatch (message : Text)
deriving DecidableEq, Repr

/-- One more than the greatest number that a numeral may spell exactly. -/
def exactLimit : Nat := Nat.pow 2 64

def digitValue (digit : Char) : Nat := digit.toNat - 0x30

/-- A whole number after taking in digits while it stays below the limit, and what is left. -/
def takeDigits (value : Nat) : Text → Nat × Text
  | [] => (value, [])
  | digit :: rest =>
    if digit.isDigit && value * 10 + digitValue digit < exactLimit then
      takeDigits (value * 10 + digitValue digit) rest
    else (value, digit :: rest)

/-- The digits at the beginning of a text, and what follows them. -/
def spanDigits (text : Text) : Text × Text := text.span Char.isDigit

def startsWithDigit : Text → Bool
  | character :: _ => character.isDigit
  | [] => false

/-- Whether a text begins with the mark of an exponent. -/
def startsWithExponent : Text → Bool
  | character :: _ => character == 'e' || character == 'E'
  | [] => false

def powerOfTen (exponent : Nat) : Binary := .round .double false (Nat.pow 10 exponent) 1 0

/-- The number `value * 10 ^ exponent`; an exponent below the range of the powers of ten is taken in
steps. -/
def scale : Nat → Binary → Int → Except ReadError Binary
  | 0, value, _ => .ok value
  | steps + 1, value, exponent =>
    if exponent.natAbs ≤ 308 then
      if 0 ≤ exponent then
        match Binary.multiply .double value (powerOfTen exponent.natAbs) with
        | .infinite _ => .error .malformed
        | product => .ok product
      else .ok (Binary.divide .double value (powerOfTen exponent.natAbs))
    else if value = .zero false then .ok value
    else if 0 ≤ exponent then .error .malformed
    else scale steps (Binary.divide .double value (powerOfTen 308)) (exponent + 308)

/-- The floating-point number `significand * 10 ^ exponent` with its sign. -/
def floatOf (negative : Bool) (significand : Nat) (exponent : Int) :
    Except ReadError Binary := do
  let magnitude ← scale 8 (.ofNat .double significand) exponent
  pure (if negative then magnitude.negate else magnitude)

/-- The bound of exponents that are told apart. -/
def exponentLimit : Nat := Nat.pow 2 31

/-- The rest of a number from the mark of its exponent on. -/
def readExponent (negative : Bool) (significand : Nat) (exponent : Int) (text : Text) :
    Except ReadError (Json × Text) := do
  let afterMark := text.drop 1
  let (down, afterSign) := match afterMark with
    | '+' :: rest => (false, rest)
    | '-' :: rest => (true, rest)
    | _ => (false, afterMark)
  if afterSign = [] then throw .endOfText
  if !startsWithDigit afterSign then throw .malformed
  let (digits, rest) := spanDigits afterSign
  let size := digits.foldl (fun value digit => value * 10 + digitValue digit) 0
  if exponentLimit ≤ size then
    if significand ≠ 0 ∧ !down then throw .malformed
    else pure (.float (.zero negative), rest)
  else
    let total : Int := if down then exponent - size else exponent + size
    let value ← floatOf negative significand total
    pure (.float value, rest)

/-- The rest of a number after the digits of its significand. -/
def readAfterDigits (negative : Bool) (significand : Nat) (exponent : Int) (text : Text) :
    Except ReadError (Json × Text) := do
  if startsWithExponent text then readExponent negative significand exponent text
  else
    let value ← floatOf negative significand exponent
    pure (.float value, text)

/-- The rest of a number from its point on. -/
def readFraction (negative : Bool) (significand : Nat) (exponent : Int) (text : Text) :
    Except ReadError (Json × Text) := do
  let afterPoint := text.drop 1
  let (value, rest) := takeDigits significand afterPoint
  let places := afterPoint.length - rest.length
  if startsWithDigit rest then
    readAfterDigits negative value (exponent - places) (spanDigits rest).2
  else if places = 0 then throw (if rest = [] then .endOfText else .malformed)
  else readAfterDigits negative value (exponent - places) rest

/-- A number without its sign. -/
def readMagnitude (negative : Bool) (text : Text) : Except ReadError (Json × Text) := do
  if text = [] then throw .endOfText
  if !startsWithDigit text then throw .malformed
  let (value, rest) := if text.head? = some '0' then (0, text.drop 1) else takeDigits 0 text
  if startsWithDigit rest then
    if text.head? = some '0' then throw .malformed
    else
      let (dropped, later) := spanDigits rest
      if later.head? = some '.' then readFraction negative value dropped.length later
      else readAfterDigits negative value dropped.length later
  else if rest.head? = some '.' then readFraction negative value 0 rest
  else if startsWithExponent rest then readExponent negative value 0 rest
  else if !negative then pure (.natural value, rest)
  else if value = 0 ∨ Nat.pow 2 63 < value then
    pure (.float (Binary.ofNat .double value).negate, rest)
  else pure (.negative value, rest)

def readNumber (text : Text) : Except ReadError (Json × Text) :=
  match text with
  | '-' :: rest => readMagnitude true rest
  | _ => readMagnitude false text

/-- The text after a minus sign, if it begins with one. -/
def skipMinus : Text → Text
  | '-' :: rest => rest
  | rest => rest

/-- The text after a sign, if it begins with one. -/
def skipSign : Text → Text
  | '+' :: rest => rest
  | '-' :: rest => rest
  | rest => rest

/-- The text after the whole part of a number without its sign. -/
def skipWhole (text : Text) : Except ReadError Text :=
  if startsWithDigit text then
    if text.head? = some '0' then
      if startsWithDigit (text.drop 1) then .error .malformed else .ok (text.drop 1)
    else .ok (spanDigits text).2
  else .error .malformed

/-- The text after a point and the digits behind it, if it begins with a point. -/
def skipFraction (text : Text) : Except ReadError Text :=
  if text.head? = some '.' then
    if startsWithDigit (text.drop 1) then .ok (spanDigits (text.drop 1)).2 else .error .malformed
  else .ok text

/-- The text after a power of ten, if it begins with the mark of one. -/
def skipExponent (text : Text) : Except ReadError Text :=
  if startsWithExponent text then
    if startsWithDigit (skipSign (text.drop 1)) then .ok (spanDigits (skipSign (text.drop 1))).2
    else .error .malformed
  else .ok text

/-- The text after a number whose value does not matter. -/
def skipNumber (text : Text) : Except ReadError Text := do
  skipExponent (← skipFraction (← skipWhole (skipMinus text)))

end CompiledViews.Json
