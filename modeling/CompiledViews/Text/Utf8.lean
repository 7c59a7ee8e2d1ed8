import CompiledViews.Text.Basic

/-!
# UTF-8

Text as bytes and back. A decoder is fed one byte after the other and is either between characters
or inside one. Bytes that are no text are replaced where that is wanted: every longest beginning of
a character that does not go on as it must counts as one replacement character.
-/

namespace CompiledViews

abbrev Bytes := List UInt8

namespace Text

def utf8 (text : Text) : Bytes := text.flatMap String.utf8EncodeChar

/-- The size of a text as bytes. -/
def utf8Length (text : Text) : Nat :=
  text.foldl (fun length character => length + character.utf8Size) 0

end Text

namespace Utf8

/-- Where a decoder is: between characters, or inside one whose bits so far are `value`, which
takes `left` more bytes, the next one from `lowest` to `highest`. -/
inductive State where
  | between
  | inside (value left lowest highest : Nat)
deriving DecidableEq, Repr

/-- What bytes decode to: a character, or something that is none. -/
inductive Piece where
  | scalar (character : Char)
  | invalid
deriving DecidableEq, Repr

/-- What the first byte of a character does. -/
def start (byte : Nat) : List Piece × State :=
  if byte < 0x80 then ([.scalar (Char.ofNat byte)], .between)
  else if byte < 0xC2 then ([.invalid], .between)
  else if byte < 0xE0 then ([], .inside (byte - 0xC0) 1 0x80 0xBF)
  else if byte < 0xF0 then
    ([], .inside (byte - 0xE0) 2 (if byte = 0xE0 then 0xA0 else 0x80)
      (if byte = 0xED then 0x9F else 0xBF))
  else if byte < 0xF5 then
    ([], .inside (byte - 0xF0) 3 (if byte = 0xF0 then 0x90 else 0x80)
      (if byte = 0xF4 then 0x8F else 0xBF))
  else ([.invalid], .between)

/-- What a byte does. One that does not go on with the character at hand is taken as the first byte
of another one. -/
def step (byte : Nat) : State → List Piece × State
  | .between => start byte
  | .inside value left lowest highest =>
    if lowest ≤ byte ∧ byte ≤ highest then
      let next := value * 0x40 + (byte - 0x80)
      if left ≤ 1 then ([.scalar (Char.ofNat next)], .between)
      else ([], .inside next (left - 1) 0x80 0xBF)
    else
      let (pieces, state) := start byte
      (.invalid :: pieces, state)

/-- What the end of the bytes does. -/
def finish : State → List Piece
  | .between => []
  | .inside .. => [.invalid]

def decodeFrom (state : State) : Bytes → List Piece
  | [] => finish state
  | byte :: rest =>
    let (pieces, next) := step byte.toNat state
    pieces ++ decodeFrom next rest

def decode (bytes : Bytes) : List Piece := decodeFrom .between bytes

/-- The character that a piece is shown as. -/
def Piece.shown : Piece → Char
  | scalar character => character
  | invalid => '\uFFFD'

def Piece.scalar? : Piece → Option Char
  | scalar character => some character
  | invalid => none

/-- The text of bytes, with replacement characters for what is no text. -/
def lossyText (bytes : Bytes) : Text := (decode bytes).map Piece.shown

/-- The text of bytes, if they are text throughout. -/
def text? (bytes : Bytes) : Option Text := (decode bytes).mapM Piece.scalar?

end Utf8

end CompiledViews
