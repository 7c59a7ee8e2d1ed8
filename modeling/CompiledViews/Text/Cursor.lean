import CompiledViews.Text.Lines

/-!
# Operations on a place between lines

What a reader may ask of a `Cursor`, as values: a reader that asks one thing after the other is a
list of them.
-/

namespace CompiledViews.Text.Cursor

/-- What may be asked of a place between lines. A test of lines may have answers of any kind. -/
inductive Operation (α : Type) where
  | hasNext
  | peek
  | next
  | seekMark (mark : Text)
  | seekAnswer (find : Text → Option α)
  | seekMarkBefore (mark : Text) (stop : Text → Bool)

/-- What there is to know after an operation. -/
inductive Answer (α : Type) where
  | truth (value : Bool)
  | line (line : Option Text)
  | found (answer : Option α)
deriving DecidableEq, Repr

variable {α : Type}

/-- The answer to an operation, and the place after it. -/
def perform (cursor : Cursor) : Operation α → Answer α × Cursor
  | .hasNext => (.truth cursor.hasNext, cursor)
  | .peek => (.line cursor.peek, cursor)
  | .next => cursor.next.map .line id
  | .seekMark mark => (cursor.seekMark mark).map .truth id
  | .seekAnswer find => (cursor.seekAnswer find).map .found id
  | .seekMarkBefore mark stop => (cursor.seekMarkBefore mark stop).map .line id

/-- The place to which operations lead, one after the other. -/
def after (cursor : Cursor) (operations : List (Operation α)) : Cursor :=
  operations.foldl (fun place operation => (place.perform operation).2) cursor

end CompiledViews.Text.Cursor
