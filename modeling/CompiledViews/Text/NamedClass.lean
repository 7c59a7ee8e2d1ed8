import CompiledViews.Text.Basic

/-!
# Classes of characters with names

Patterns and expressions name some classes of ASCII characters between colons. A class is its ranges
in ascending order.
-/

namespace CompiledViews.Text

def capitalRange : Char × Char := ('A', 'Z')

def smallRange : Char × Char := ('a', 'z')

def digitRange : Char × Char := ('0', '9')

/-- The ranges of the class with a name. -/
def namedClass? (name : Text) : Option (List (Char × Char)) :=
  match Text.toString name with
  | "upper" => some [capitalRange]
  | "lower" => some [smallRange]
  | "alpha" => some [capitalRange, smallRange]
  | "digit" => some [digitRange]
  | "alnum" => some [digitRange, capitalRange, smallRange]
  | "xdigit" => some [digitRange, ('A', 'F'), ('a', 'f')]
  | "blank" => some [('\t', '\t'), (' ', ' ')]
  | "space" => some [('\t', '\r'), (' ', ' ')]
  | "cntrl" => some [('\x00', '\x1f'), ('\x7f', '\x7f')]
  | "punct" => some [('!', '/'), (':', '@'), ('[', '\x60'), ('\x7b', '~')]
  | "graph" => some [('!', '~')]
  | "print" => some [(' ', '~')]
  | _ => none

end CompiledViews.Text
