import CompiledViews.Text.CharClass
import CompiledViews.Text.Blank

/-!
# Forms

A form describes the shape of a line and what is taken from it. It answers with every way of
reading the beginning of a text, each with the rest, and puts the reading it prefers first: a run
prefers more characters to fewer, and a choice prefers its left side. A line has the form if there
is a reading at all, and then the first one counts.

Where what follows a run cannot begin with a character of it, giving characters back is of no use,
and `span` takes them all.
-/

namespace CompiledViews.Text

/-- The readings of a text's beginning, preferred first, each with the text that is left. -/
def Form (α : Type) := Text → List (α × Text)

namespace Form

variable {α β : Type}

def nothing (value : α) : Form α := fun text => [(value, text)]

/-- One form after the other; the second may depend on what the first one read. -/
def andThen (form : Form α) (next : α → Form β) : Form β := fun text =>
  (form text).flatMap fun (value, rest) => next value rest

instance : Monad Form where
  pure := nothing
  bind := andThen

/-- The readings of the left form, then those of the right one. -/
def either (left right : Form α) : Form α := fun text => left text ++ right text

/-- A form that may be left out, but is read where it can be. -/
def optional (form : Form α) : Form (Option α) :=
  either (andThen form fun value => nothing (some value)) (nothing none)

/-- One character of a class. -/
def one (isMember : Char → Bool) : Form Char
  | [] => []
  | character :: rest => if isMember character then [(character, rest)] else []

/-- The given text itself. -/
def literal (expected : Text) : Form Unit := fun text =>
  match after? expected text with
  | some rest => [((), rest)]
  | none => []

/-- As many characters of a class as can be; fewer if what follows needs them. -/
def run (isMember : Char → Bool) : Form Text
  | [] => [([], [])]
  | character :: rest =>
    if isMember character then
      (run isMember rest).map (fun (taken, left) => (character :: taken, left)) ++
        [([], character :: rest)]
    else [([], character :: rest)]

/-- A run of at least one character. -/
def run1 (isMember : Char → Bool) : Form Text :=
  andThen (one isMember) fun first => andThen (run isMember) fun others =>
    nothing (first :: others)

/-- All characters of a class up to the first one that is none. -/
def span (isMember : Char → Bool) : Form Text := fun text => [text.span isMember]

/-- As `span`, but at least one character. -/
def span1 (isMember : Char → Bool) : Form Text := fun text =>
  if (text.takeWhile isMember).isEmpty then [] else [text.span isMember]

/-- The characters of a class up to an occurrence of a mark, which is read as well; a later
occurrence is preferred to an earlier one. -/
def upTo (isMember : Char → Bool) (mark : Text) : Form Text
  | [] => []
  | character :: rest =>
    (if isMember character then
      (upTo isMember mark rest).map fun (taken, left) => (character :: taken, left)
    else []) ++
    (match after? mark (character :: rest) with
      | some left => [([], left)]
      | none => [])

def given (value : Option α) : Form α := fun text =>
  match value with
  | some value => [(value, text)]
  | none => []

/-- Exactly `count` characters of a class. -/
def exactly (isMember : Char → Bool) : Nat → Form Text
  | 0 => nothing []
  | count + 1 =>
    andThen (one isMember) fun first => andThen (exactly isMember count) fun others =>
      nothing (first :: others)

def atEnd : Form Unit
  | [] => [((), [])]
  | _ :: _ => []

/-- The reading together with the text it covers. -/
def covering (form : Form α) : Form (Text × α) := fun text =>
  (form text).map fun (value, rest) => ((text.take (text.length - rest.length), value), rest)

/-- The form at the first place of the text where it can be read. -/
def anywhere (form : Form α) : Form α
  | [] => form []
  | character :: rest => form (character :: rest) ++ anywhere form rest

/-- Any character that can stand in a line. -/
def anyInLine (character : Char) : Bool := character != '\n'

/-- At least one blank, all that there are. -/
def blanks : Form Text := span1 isBlank

/-- At least one blank, or fewer than there are if what follows needs them. -/
def someBlanks : Form Text := run1 isBlank

/-- At least one decimal digit of any script, all that there are. -/
def digits : Form Text := span1 isDecimalDigit

/-- At least one hexadecimal digit, all that there are. -/
def hexDigits : Form Text := span1 isHexDigit

/-- Any characters, or none, up to the end of the line. -/
def anything : Form Text := span anyInLine

/-- At least one character, up to the end of the line. -/
def something : Form Text := span1 anyInLine

/-- Any characters, or none, up to an occurrence of a mark in the line, preferably the last one. -/
def anythingUpTo (mark : Text) : Form Text := upTo anyInLine mark

/-- At least one character up to an occurrence of a mark in the line, preferably the last one. -/
def somethingUpTo (mark : Text) : Form Text :=
  andThen (one anyInLine) fun first => andThen (anythingUpTo mark) fun others =>
    nothing (first :: others)

/-- What the preferred reading of a text takes from it. -/
def first? (form : Form α) (text : Text) : Option α := (form text).head?.map (·.1)

def accepts (form : Form α) (text : Text) : Bool := (form.first? text).isSome

end Form

/-- A text that ends in a blank, without that blank, if something is left of it. -/
def beforeLastBlank? (text : Text) : Option Text :=
  match text.getLast? with
  | some last => if isBlank last && decide (2 ≤ text.length) then some text.dropLast else none
  | none => none

end CompiledViews.Text
