import CompiledViews.Text.Basic

/-!
# Style of a listing

What can be chosen about the looks of a listing. No choice changes which line is where, but a choice
can be too wide for any text.
-/

namespace CompiledViews

/-- The looks of a listing: columns of indentation, columns for source line numbers, and whether
those are shown. -/
structure Style where
  indent : Nat
  lineNumberWidth : Nat
  showLineNumbers : Bool
deriving DecidableEq, Repr

namespace Style

/-- The style of a listing for which none is chosen. -/
def default : Style := ⟨4, 4, true⟩

/-- The widest column that a text is padded to. -/
def widestColumn : Nat := 65535

/-- The most bytes that a text has. -/
def mostBytes : Nat := 9223372036854775807

end Style

end CompiledViews
