import CompiledViews.Text.NamedClass

/-!
# Patterns of the shell

A pattern is text in which a star stands for any text, a question mark for any character, and
brackets for one of the characters in them. Where they are quoted they stand for themselves.
-/

namespace CompiledViews.Shell

/-- Text whose characters are quoted or not. -/
abbrev MarkedText := List (Char × Bool)

def MarkedText.plain (text : MarkedText) : Text := text.map (·.1)

/-- A part of a pattern: a character, any character, any text, or one of the characters in some
ranges, or none of them. -/
inductive PatternPart where
  | exactly (character : Char)
  | anyChar
  | anyText
  | oneOf (wanted : Bool) (ranges : List (Char × Char))
deriving DecidableEq, Repr

/-- A pattern. -/
abbrev Pattern := List PatternPart

namespace Pattern

/-- The ranges between brackets, and what follows them; a closing bracket is a member if it comes
first. -/
def readRanges : (limit : Nat) → (isFirst : Bool) → MarkedText →
    Option (List (Char × Char) × MarkedText)
  | 0, _, _ => none
  | _, _, [] => none
  | limit + 1, isFirst, (']', false) :: rest =>
    if isFirst then
      (readRanges limit false rest).map fun (ranges, left) => ((']', ']') :: ranges, left)
    else some ([], rest)
  | limit + 1, _, ('[', false) :: (':', false) :: rest =>
    let name := MarkedText.plain (rest.takeWhile fun entry => entry.1.isLower)
    match rest.drop name.length with
    | (':', false) :: (']', false) :: after =>
      (readRanges limit false after).map fun (ranges, left) =>
        ((Text.namedClass? name).getD [] ++ ranges, left)
    | _ =>
      (readRanges limit false ((':', false) :: rest)).map fun (ranges, left) =>
        (('[', '[') :: ranges, left)
  | limit + 1, _, (low, _) :: ('-', false) :: high :: rest =>
    if high = (']', false) then
      (readRanges limit false (('-', false) :: high :: rest)).map fun (ranges, left) =>
        ((low, low) :: ranges, left)
    else
      (readRanges limit false rest).map fun (ranges, left) => ((low, high.1) :: ranges, left)
  | limit + 1, _, (character, _) :: rest =>
    (readRanges limit false rest).map fun (ranges, left) =>
      ((character, character) :: ranges, left)

def ofMarked : (limit : Nat) → MarkedText → Pattern
  | 0, _ => []
  | _, [] => []
  | limit + 1, ('*', false) :: rest => .anyText :: ofMarked limit rest
  | limit + 1, ('?', false) :: rest => .anyChar :: ofMarked limit rest
  | limit + 1, ('[', false) :: rest =>
    let wanted := rest.head? != some ('!', false)
    match readRanges limit true (if wanted then rest else rest.tail) with
    | some (ranges, after) => .oneOf wanted ranges :: ofMarked limit after
    | none => .exactly '[' :: ofMarked limit rest
  | limit + 1, (character, _) :: rest => .exactly character :: ofMarked limit rest

def read (text : MarkedText) : Pattern := ofMarked (text.length + 1) text

def admits (part : PatternPart) (character : Char) : Bool :=
  match part with
  | .exactly wanted => wanted == character
  | .anyChar | .anyText => true
  | .oneOf wanted ranges =>
    (ranges.any fun (low, high) => low ≤ character && character ≤ high) == wanted

def accepts : Pattern → Text → Bool
  | [], text => text.isEmpty
  | .anyText :: parts, text =>
    (List.range (text.length + 1)).any fun count => accepts parts (text.drop count)
  | part :: parts, character :: rest => admits part character && accepts parts rest
  | _ :: _, [] => false

/-- Whether a pattern stands for more than itself. -/
def isWild (pattern : Pattern) : Bool :=
  pattern.any fun part =>
    match part with
    | .exactly _ => false
    | _ => true

/-- A text without the shortest or longest part at its beginning or end that a pattern matches. -/
def remove (pattern : Pattern) (atEnd longest : Bool) (text : Text) : Text :=
  let lengths := List.range (text.length + 1)
  let cut (count : Nat) : Text × Text :=
    if atEnd then (text.drop (text.length - count), text.take (text.length - count))
    else (text.take count, text.drop count)
  match (if longest then lengths.reverse else lengths).find? fun count =>
      accepts pattern (cut count).1 with
  | some count => (cut count).2
  | none => text

end Pattern

end CompiledViews.Shell
