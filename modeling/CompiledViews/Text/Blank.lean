import CompiledViews.Text.Basic

/-!
# Blank characters

The characters with the Unicode property White_Space, and trimming and word splitting by them.
-/

namespace CompiledViews.Text

/-- The twenty-five characters with the property White_Space. -/
def isBlank (character : Char) : Bool :=
  let code := character.toNat
  (0x9 ≤ code && code ≤ 0xD) || code == 0x20 || code == 0x85 || code == 0xA0 || code == 0x1680 ||
    (0x2000 ≤ code && code ≤ 0x200A) || code == 0x2028 || code == 0x2029 || code == 0x202F ||
    code == 0x205F || code == 0x3000

/-- The text from its first character that is not blank. -/
def trimLeft (text : Text) : Text := text.dropWhile isBlank

/-- The text without the characters at its end that satisfy `unwanted`. -/
def dropRightWhile (unwanted : Char → Bool) : Text → Text
  | [] => []
  | character :: rest =>
    match dropRightWhile unwanted rest with
    | [] => if unwanted character then [] else [character]
    | kept => character :: kept

/-- The text up to its last character that is not blank. -/
def trimRight (text : Text) : Text := dropRightWhile isBlank text

/-- The text without blank characters at either end. -/
def trim (text : Text) : Text := trimRight (trimLeft text)

/-- The words of a text after the characters of an unfinished word. -/
def wordsFrom (current : Text) : Text → List Text
  | [] => if current = [] then [] else [current.reverse]
  | character :: rest =>
    if isBlank character then
      if current = [] then wordsFrom [] rest else current.reverse :: wordsFrom [] rest
    else wordsFrom (character :: current) rest

/-- The maximal runs of characters that are not blank. -/
def words (text : Text) : List Text := wordsFrom [] text

/-- Every character that is blank in the ASCII sense is blank. -/
theorem isBlank_of_isWhitespace {character : Char} (blank : character.isWhitespace = true) :
    isBlank character = true := by
  simp only [Char.isWhitespace, Bool.or_eq_true, decide_eq_true_eq] at blank
  rcases blank with ((rfl | rfl) | rfl) | rfl <;> decide

end CompiledViews.Text
