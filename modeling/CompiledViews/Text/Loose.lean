import CompiledViews.Text.Utf8

/-!
# Bytes as text that loses nothing

Programs pass on bytes that are no text. As text, such a byte is a character of its own that stands
for nothing else, so that the bytes can be had back.
-/

namespace CompiledViews

/-- One less than the first character that stands for a byte. -/
def looseBase : Nat := 0x10FF00

/-- The character that stands for a byte that is no text. -/
def looseChar (byte : UInt8) : Char := Char.ofNat (looseBase + byte.toNat)

/-- The byte that a character stands for, if it does. -/
def looseByte? (character : Char) : Option UInt8 :=
  if looseBase ≤ character.toNat then some (UInt8.ofNat (character.toNat - looseBase)) else none

/-- The bytes of a character, or the one that it stands for. -/
def charBytes (character : Char) : Bytes :=
  match looseByte? character with
  | some byte => [byte]
  | none => String.utf8EncodeChar character

/-- The bytes of a text, and those that its characters stand for. -/
def Text.bytes (text : Text) : Bytes := text.flatMap charBytes

namespace Bytes

/-- The pieces that bytes decode to, after bytes of an unfinished one, which are given in order. A
byte that is no text is a character that stands for it. -/
def looseFrom (state : Utf8.State) (pending : Bytes) : Bytes → Text
  | [] => pending.map looseChar
  | byte :: rest =>
    let (pieces, next) := Utf8.step byte.toNat state
    match pieces with
    | [] => looseFrom next (pending ++ [byte]) rest
    | [.scalar character] => character :: looseFrom next [] rest
    | _ =>
      match next with
      | .inside .. => pending.map looseChar ++ looseFrom next [byte] rest
      | .between =>
        match pieces.getLast? with
        | some (.scalar character) => pending.map looseChar ++ character :: looseFrom next [] rest
        | _ => pending.map looseChar ++ looseChar byte :: looseFrom next [] rest

def loose (bytes : Bytes) : Text := looseFrom .between [] bytes

end Bytes

end CompiledViews
