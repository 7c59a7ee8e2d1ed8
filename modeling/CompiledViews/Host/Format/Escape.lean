import CompiledViews.Text.Loose

/-!
# Escapes

A backslash in a text that is printed stands, with the characters after it, for a byte. Which
escapes there are depends on who prints.
-/

namespace CompiledViews.Host

/-- Which escapes there are besides those with letters and octal digits: hexadecimal ones and that
of the double quote, octal digits after a zero that does not count, and the end of what is printed.
-/
structure EscapeStyle where
  hexadecimal : Bool
  zeroMark : Bool
  endMark : Bool
deriving DecidableEq, Repr

/-- What an escape stands for: bytes, the end of all that is printed, or nothing that can be
printed. -/
inductive Escape where
  | bytes (bytes : Bytes)
  | ending
  | missingDigits
deriving DecidableEq, Repr

namespace Escape

/-- Whether a character is an octal digit. -/
def isOctal (character : Char) : Bool := '0' ≤ character && character ≤ '7'

def hexValue? (digit : Char) : Option Nat :=
  if digit.isDigit then some (digit.toNat - 0x30)
  else if 'a' ≤ digit ∧ digit ≤ 'f' then some (digit.toNat - 0x57)
  else if 'A' ≤ digit ∧ digit ≤ 'F' then some (digit.toNat - 0x37)
  else none

/-- The number that digits of a base spell. -/
def spelled (base : Nat) (digits : Text) : Nat :=
  digits.foldl (fun value digit => value * base + (hexValue? digit).getD 0) 0

/-- The byte that a backslash and a letter stand for. -/
def letter? : Char → Option UInt8
  | 'a' => some 0x07
  | 'b' => some 0x08
  | 'e' => some 0x1B
  | 'f' => some 0x0C
  | 'n' => some 0x0A
  | 'r' => some 0x0D
  | 't' => some 0x09
  | 'v' => some 0x0B
  | '\\' => some 0x5C
  | _ => none

/-- The escape with octal digits at the beginning of a text, and what is left. -/
def octal (text : Text) : Escape × Text :=
  let digits := (text.take 3).takeWhile isOctal
  (bytes [UInt8.ofNat (spelled 8 digits)], text.drop digits.length)

/-- The hexadecimal digits at the beginning of a text, at most a number of them. -/
def hexDigits (count : Nat) (text : Text) : Text :=
  (text.take count).takeWhile fun digit => (hexValue? digit).isSome

/-- What follows a backslash, and what is left. -/
def read (style : EscapeStyle) (text : Text) : Escape × Text :=
  match text with
  | [] => (bytes [0x5C], [])
  | character :: rest =>
    if style.endMark && character == 'c' then (ending, rest)
    else if style.zeroMark && character == '0' then octal rest
    else if isOctal character then octal text
    else
      match letter? character with
      | some byte => (bytes [byte], rest)
      | none =>
        let count := if character = 'x' then 2 else if character = 'u' then 4 else 8
        if style.hexadecimal && character == '"' then (bytes [0x22], rest)
        else if style.hexadecimal && ("xuU" : Text).contains character then
          match hexDigits count rest with
          | [] => (missingDigits, rest)
          | digits =>
            let left := rest.drop digits.length
            if character = 'x' then (bytes [UInt8.ofNat (spelled 16 digits)], left)
            else
              let shown := Text.padLeft count (digits.map Char.toUpper)
              (bytes (Text.bytes ('\\' :: character :: Text.replaceChar ' ' '0' shown)), left)
        else (bytes (Text.bytes ['\\', character]), rest)

/-- The bytes of a text with escapes, and whether it is not ended before its end. -/
def expandFrom (style : EscapeStyle) : (limit : Nat) → Text → Bytes × Bool
  | 0, _ => ([], true)
  | _, [] => ([], true)
  | limit + 1, '\\' :: rest =>
    match read style rest with
    | (.bytes printed, left) =>
      let (others, goesOn) := expandFrom style limit left
      (printed ++ others, goesOn)
    | _ => ([], false)
  | limit + 1, character :: rest =>
    let (others, goesOn) := expandFrom style limit rest
    (charBytes character ++ others, goesOn)

/-- The bytes of a text with escapes, and whether it is not ended before its end. -/
def expand (style : EscapeStyle) (text : Text) : Bytes × Bool :=
  expandFrom style (text.length + 1) text

end Escape

end CompiledViews.Host
