/-!
# Text

Dumps, listings and messages are all text that is read from left to right, so text is the list
of its characters and every reader recurses on it. A string literal stands for its characters
wherever text is expected.
-/

namespace CompiledViews

/-- Text is a list of Unicode scalar values. -/
abbrev Text := List Char

instance : Coe String Text := ⟨String.toList⟩

namespace Text

def toString (text : Text) : String := String.ofList text

def ofNat (number : Nat) : Text := Nat.toDigits 10 number

def startsWith (text start : Text) : Bool := start.isPrefixOf text

def endsWith (text ending : Text) : Bool := ending.isSuffixOf text

/-- What follows `start`, if the text begins with it. -/
def after? (start text : Text) : Option Text := start.isPrefixOf? text

/-- The parts of a text around the first occurrence of a mark. -/
def splitOnce (mark : Text) : Text → Option (Text × Text)
  | [] => if mark = [] then some ([], []) else none
  | character :: rest =>
    match after? mark (character :: rest) with
    | some right => some ([], right)
    | none => (splitOnce mark rest).map fun (left, right) => (character :: left, right)

/-- The pieces of a text between the occurrences of a separating character; never empty. -/
def splitAll (separator : Char) : Text → List Text
  | [] => [[]]
  | character :: rest =>
    if character = separator then [] :: splitAll separator rest
    else
      match splitAll separator rest with
      | [] => [[character]]
      | piece :: pieces => (character :: piece) :: pieces

/-- The pieces in order, with the separator between neighbours. -/
def join (separator : Text) : List Text → Text
  | [] => []
  | [piece] => piece
  | piece :: next :: pieces => piece ++ separator ++ join separator (next :: pieces)

/-- The text before the last occurrence of a character and the text after it. -/
def splitLast (mark : Char) : Text → Option (Text × Text)
  | [] => none
  | character :: rest =>
    match splitLast mark rest with
    | some (left, right) => some (character :: left, right)
    | none => if character = mark then some ([], rest) else none

/-- The text after the last occurrence of a character; all of it if there is none. -/
def afterLast (mark : Char) (text : Text) : Text :=
  match splitLast mark text with
  | some (_, right) => right
  | none => text

/-- One character in place of another. -/
def replaceChar (old new : Char) (text : Text) : Text :=
  text.map fun character => if character = old then new else character

/-- The text without the occurrences of `pattern` that a scan from the left meets; `skip` counts
the characters that still belong to the occurrence just met. -/
def removeAllFrom (pattern : Text) : Nat → Text → Text
  | _, [] => []
  | skip + 1, _ :: rest => removeAllFrom pattern skip rest
  | 0, character :: rest =>
    if pattern.isPrefixOf (character :: rest) then removeAllFrom pattern (pattern.length - 1) rest
    else character :: removeAllFrom pattern 0 rest

/-- The text without any occurrence of a non-empty pattern, occurrences taken from the left and
not overlapping. -/
def removeAll (pattern text : Text) : Text := removeAllFrom pattern 0 text

/-- Spaces up to a number of columns. -/
def spaces (count : Nat) : Text := List.replicate count ' '

/-- The text padded with spaces on the right to at least `width` characters. -/
def padRight (width : Nat) (text : Text) : Text := text ++ spaces (width - text.length)

/-- The text padded with spaces on the left to at least `width` characters. -/
def padLeft (width : Nat) (text : Text) : Text := spaces (width - text.length) ++ text

end Text

end CompiledViews
