import CompiledViews.Text.Blank

/-!
# Lines

A text is cut into lines at line feeds; one carriage return before a line feed goes with it. A
last line without a line feed counts, an empty one does not.

A `Cursor` is a place between two lines. Its operations look for a line from there on, and
`lineNumber` counts the lines before it.
-/

namespace CompiledViews.Text

/-- The lines of a text, without their ends. -/
def lines : Text → List Text
  | [] => []
  | '\n' :: rest => [] :: lines rest
  | '\r' :: '\n' :: rest => [] :: lines rest
  | character :: rest =>
    match lines rest with
    | [] => [[character]]
    | line :: others => (character :: line) :: others

/-- The lines one under the other, each closed by a line feed. -/
def unlines (lines : List Text) : Text := lines.flatMap (· ++ ['\n'])

/-- A place between two lines: the lines after it, and the number of lines before it. -/
structure Cursor where
  remaining : List Text
  lineNumber : Nat
deriving DecidableEq, Repr

namespace Cursor

/-- The place before the first line. -/
def ofText (text : Text) : Cursor := ⟨lines text, 0⟩

def hasNext (cursor : Cursor) : Bool := !cursor.remaining.isEmpty

def peek (cursor : Cursor) : Option Text := cursor.remaining.head?

/-- The line that follows, and the place after it. -/
def next (cursor : Cursor) : Option Text × Cursor :=
  match cursor.remaining with
  | [] => (none, cursor)
  | line :: rest => (some line, ⟨rest, cursor.lineNumber + 1⟩)

/-- The place after the first line for which `find` has an answer, with that answer; the end if
there is none. -/
def seek {α : Type} (find : Text → Option α) : List Text → Nat → Option α × Cursor
  | [], lineNumber => (none, ⟨[], lineNumber⟩)
  | line :: rest, lineNumber =>
    match find line with
    | some answer => (some answer, ⟨rest, lineNumber + 1⟩)
    | none => seek find rest (lineNumber + 1)

/-- The place after the first line for which `find` has an answer. -/
def seekAnswer {α : Type} (cursor : Cursor) (find : Text → Option α) : Option α × Cursor :=
  seek find cursor.remaining cursor.lineNumber

/-- The place after the first line that begins with `mark` once trimmed, and whether there is
one. -/
def seekMark (cursor : Cursor) (mark : Text) : Bool × Cursor :=
  let (found, place) := cursor.seekAnswer fun line =>
    if startsWith (trim line) mark then some () else none
  (found.isSome, place)

/-- The first line that begins with `mark` once trimmed, provided that no line up to it, itself
included, satisfies `stop`; the place is after that line, or before the one that stopped. -/
def seekBefore (mark : Text) (stop : Text → Bool) : List Text → Nat → Option Text × Cursor
  | [], lineNumber => (none, ⟨[], lineNumber⟩)
  | line :: rest, lineNumber =>
    if stop line then (none, ⟨line :: rest, lineNumber⟩)
    else if startsWith (trim line) mark then (some line, ⟨rest, lineNumber + 1⟩)
    else seekBefore mark stop rest (lineNumber + 1)

def seekMarkBefore (cursor : Cursor) (mark : Text) (stop : Text → Bool) : Option Text × Cursor :=
  seekBefore mark stop cursor.remaining cursor.lineNumber

end Cursor

end CompiledViews.Text
