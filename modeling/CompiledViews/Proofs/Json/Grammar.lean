import CompiledViews.Json.Reader
import CompiledViews.Proofs.Text.Numeral

/-!
# The grammar of JSON text

What JSON text is, said without a reader: which texts are values, and how a given text is spelled
within quotes. Blanks may stand around every part. A value is told from what follows it if that is
nothing, a blank, a comma or a closing bracket.
-/

namespace CompiledViews.Json

open Text

/-- Blanks, any number of them. -/
def AreBlanks (text : Text) : Prop := text ⊆ [' ', '\n', '\r', '\t']

instance (text : Text) : Decidable (AreBlanks text) :=
  inferInstanceAs (Decidable (text ⊆ [' ', '\n', '\r', '\t']))

/-- What may follow a value. -/
def Follows (rest : Text) : Prop :=
  ∀ first ∈ rest.head?, first ∈ [' ', '\n', '\r', '\t', ',', ']', '\x7d']

section strings

/-- The letters of short escapes, and the characters that these stand for. -/
def shortEscapes : List (Char × Char) := [
  ('"', '"'), ('\\', '\\'), ('/', '/'), ('b', '\x08'), ('f', '\x0c'), ('n', '\n'), ('r', '\r'),
  ('t', '\t')]

/-- Characters that stand for themselves within quotes. -/
def IsUnescaped (character : Char) : Prop :=
  0x20 ≤ character.toNat ∧ character ≠ '"' ∧ character ≠ '\\'

/-- The digits of a code unit: four of them, hexadecimal. -/
def IsUnit (digits : Text) : Prop := digits.length = 4 ∧ ∀ digit ∈ digits, isHexDigit digit = true

/-- What a character may be spelled by: the character itself, an escape with a letter, or one with
the code units of the character in UTF-16. -/
inductive SpellsOne (character : Char) : Text → Prop
  | unescaped : IsUnescaped character → SpellsOne character [character]
  | short {letter : Char} :
      (letter, character) ∈ shortEscapes → SpellsOne character ['\\', letter]
  | unit {digits : Text} :
      IsUnit digits → hexValue digits = character.toNat →
      SpellsOne character ('\\' :: 'u' :: digits)
  | pair {high low : Text} :
      IsUnit high → IsUnit low → 0xD800 ≤ hexValue high → hexValue high < 0xDC00 →
      0xDC00 ≤ hexValue low → hexValue low < 0xE000 →
      0x10000 + (hexValue high - 0xD800) * 0x400 + (hexValue low - 0xDC00) = character.toNat →
      SpellsOne character ('\\' :: 'u' :: high ++ '\\' :: 'u' :: low)

/-- What a text may be spelled by, character by character. -/
inductive Spells : Text → Text → Prop
  | nil : Spells [] []
  | cons {character : Char} {piece value spelled : Text} :
      SpellsOne character piece → Spells value spelled →
      Spells (character :: value) (piece ++ spelled)

/-- A piece of a string: a character that stands for itself, or an escape. -/
inductive IsPiece : Text → Prop
  | unescaped {character : Char} : IsUnescaped character → IsPiece [character]
  | short {letter character : Char} : (letter, character) ∈ shortEscapes → IsPiece ['\\', letter]
  | unit {digits : Text} : IsUnit digits → IsPiece ('\\' :: 'u' :: digits)

/-- What may stand within quotes. Code units need not be those of characters. -/
inductive IsSpelling : Text → Prop
  | nil : IsSpelling []
  | cons {piece spelled : Text} : IsPiece piece → IsSpelling spelled → IsSpelling (piece ++ spelled)

end strings

section numbers

/-- The digits after the point, with the point; or nothing. -/
def IsFraction (text : Text) : Prop := text = [] ∨ ∃ digits, IsDigits digits ∧ text = '.' :: digits

/-- A power of ten with its mark; or nothing. -/
def IsExponent (text : Text) : Prop :=
  text = [] ∨ ∃ mark ∈ ['e', 'E'], ∃ sign ∈ [[], ['+'], ['-']], ∃ digits,
    IsDigits digits ∧ text = mark :: (sign ++ digits)

/-- A number. Its whole part has no idle zeros. -/
def IsNumber (text : Text) : Prop :=
  ∃ sign ∈ [[], ['-']], ∃ whole fraction exponent,
    IsDigits whole ∧ IsPlain whole ∧ IsFraction fraction ∧ IsExponent exponent ∧
      text = sign ++ (whole ++ (fraction ++ exponent))

end numbers

section values

/-- Texts with commas between them, and blanks around them. -/
inductive Listed : List Text → Text → Prop
  | nil {blanks : Text} : AreBlanks blanks → Listed [] blanks
  | single {before text after : Text} :
      AreBlanks before → AreBlanks after → Listed [text] (before ++ (text ++ after))
  | cons {before text after body : Text} {texts : List Text} :
      AreBlanks before → AreBlanks after → texts ≠ [] → Listed texts body →
      Listed (text :: texts) (before ++ (text ++ (after ++ ',' :: body)))

/-- A member of an object, of what its name is spelled by and its value. -/
def IsMember (spelled value text : Text) : Prop :=
  ∃ before after, AreBlanks before ∧ AreBlanks after ∧
    text = '"' :: (spelled ++ '"' :: (before ++ ':' :: (after ++ value)))

/-- A value of any kind. -/
inductive IsValue : Text → Prop
  | null : IsValue "null"
  | true : IsValue "true"
  | false : IsValue "false"
  | number {text : Text} : IsNumber text → IsValue text
  | string {spelled : Text} : IsSpelling spelled → IsValue ('"' :: (spelled ++ ['"']))
  | array {elements : List Text} {body : Text} :
      (∀ element ∈ elements, IsValue element) → Listed elements body →
      IsValue ('[' :: (body ++ [']']))
  | object {members : List (Text × Text)} {texts : List Text} {body : Text} :
      (∀ member ∈ members, IsSpelling member.1) → (∀ member ∈ members, IsValue member.2) →
      List.Forall₂ (fun member => IsMember member.1 member.2) members texts → Listed texts body →
      IsValue ('\x7b' :: (body ++ ['\x7d']))

end values

end CompiledViews.Json
