import CompiledViews.Host.Format.Conversion

/-!
# Printing in formats

A format takes in arguments, and it is used again while some are left. An argument that is no number
where one is needed counts as far as it is one, which is a problem that is told.
-/

namespace CompiledViews.Host

/-- What has been printed in a format, newest first, what was wrong, newest first, the arguments
that are left, whether one has been asked for, and whether that was the end of it. -/
structure Formatting where
  printed : List Bytes
  problems : List FormatProblem
  arguments : List Text
  asked : Bool
  ended : Bool

namespace Formatting

/-- The formatting after bytes are printed. -/
def print (formatting : Formatting) (bytes : Bytes) : Formatting :=
  { formatting with printed := bytes :: formatting.printed }

def note (formatting : Formatting) (problems : List FormatProblem) : Formatting :=
  { formatting with problems := problems ++ formatting.problems }

def next (formatting : Formatting) : Option Text × Formatting :=
  (formatting.arguments.head?,
    { formatting with arguments := formatting.arguments.tail, asked := true })

/-- The problems of a numeral that an argument is to be. -/
def numeralProblems {α : Type} (argument : Text) (numeral : Numeral α) (isInRange : Bool) :
    List FormatProblem :=
  if numeral.rest ≠ [] then
    if numeral.isNumber then [.unfinishedNumber argument] else [.noNumber argument]
  else if isInRange then []
  else [.outOfRange argument]

/-- The least and the greatest number of 64 bits with a sign. -/
def signedRange : Int × Int := (-9223372036854775808, 9223372036854775807)

/-- One more than the greatest number of 64 bits without a sign. -/
def wordLimit : Nat := 18446744073709551616

/-- The first byte of a text; zero if it is empty. -/
def firstByte (text : Text) : Nat := ((Text.bytes text).head?.getD 0).toNat

/-- A whole number from the next argument, which may be a quote and a character. -/
def integer (formatting : Formatting) : Int × Formatting :=
  match formatting.next with
  | (none, after) => (0, after)
  | (some argument, after) =>
    match argument with
    | '\x27' :: rest | '"' :: rest => (firstByte rest, after)
    | _ =>
      let numeral := Numeral.whole argument
      let (least, greatest) := signedRange
      let value := max least (min greatest numeral.value)
      (value, after.note (numeralProblems argument numeral (value == numeral.value)))

/-- A number without a sign from the next argument; a negative one counts from the upper end. -/
def natural (formatting : Formatting) : Nat × Formatting :=
  match formatting.next with
  | (none, after) => (0, after)
  | (some argument, after) =>
    match argument with
    | '\x27' :: rest | '"' :: rest => (firstByte rest, after)
    | _ =>
      let numeral := Numeral.whole argument
      let isInRange := numeral.value.natAbs < wordLimit
      let value :=
        if isInRange then (numeral.value % (wordLimit : Int)).toNat else wordLimit - 1
      (value, after.note (numeralProblems argument numeral isInRange))

/-- A number with a fraction from the next argument. -/
def fractional (format : Binary.Format) (formatting : Formatting) : Binary × Formatting :=
  match formatting.next with
  | (none, after) => (Binary.zero false, after)
  | (some argument, after) =>
    match argument with
    | '\x27' :: rest | '"' :: rest => (Binary.ofNat format (firstByte rest), after)
    | _ =>
      let numeral := Numeral.fractional format argument
      (numeral.value, after.note (numeralProblems argument numeral true))

/-- A measure as a number, if there is one. -/
def measure (measure : Measure) (formatting : Formatting) : Option Int × Formatting :=
  match measure with
  | .absent => (none, formatting)
  | .fixed count => (some count, formatting)
  | .argument =>
    let (value, after) := formatting.integer
    (some value, after)

/-- How a directive lays out what it prints. A negative width asks for the left side, and a negative
precision counts as none. -/
def layout (directive : Directive) (formatting : Formatting) : Layout × Formatting :=
  let (width, afterWidth) := measure directive.width formatting
  let (precision, after) := measure directive.precision afterWidth
  let width := width.getD 0
  ({ alternate := directive.flags.contains '#'
     atLeft := directive.flags.contains '-' || width < 0
     plus := directive.flags.contains '+'
     blank := directive.flags.contains ' '
     zeros := directive.flags.contains '0'
     width := width.natAbs
     precision := (precision.filter (0 ≤ ·)).map Int.toNat }, after)

def convert (style : FormatStyle) (directive : Directive) (formatting : Formatting) : Formatting :=
  let (layout, ready) := formatting.layout directive
  match directive.letter with
  | 'd' | 'i' =>
    let (value, after) := ready.integer
    after.print (layout.integer value)
  | 'o' | 'u' | 'x' | 'X' =>
    let (value, after) := ready.natural
    after.print (layout.natural directive.letter value)
  | 'c' =>
    let (argument, after) := ready.next
    after.print ({ layout with precision := none }.text
      [((Text.bytes (argument.getD [])).head?.getD 0)])
  | 's' =>
    let (argument, after) := ready.next
    after.print (layout.text (Text.bytes (argument.getD [])))
  | 'b' =>
    let (argument, after) := ready.next
    let (bytes, goesOn) := Escape.expand style.argumentEscapes (argument.getD [])
    { after.print (layout.text bytes) with ended := !goesOn }
  | letter =>
    let (value, after) := ready.fractional style.numbers
    after.print (layout.fractional letter value)

/-- The formatting after a piece of a format. -/
def step (style : FormatStyle) (formatting : Formatting) (piece : FormatPiece) : Formatting :=
  if formatting.ended then formatting
  else
    match piece with
    | .literal bytes => formatting.print bytes
    | .directive directive => formatting.convert style directive
    | .ending => { formatting with ended := true }
    | .problem problem => { formatting.note [problem] with ended := true }

/-- The formatting after the pieces of a format, which are used again while arguments are taken
in. -/
def run (style : FormatStyle) (pieces : List FormatPiece) :
    (limit : Nat) → Formatting → Formatting
  | 0, formatting => formatting
  | limit + 1, formatting =>
    let after := pieces.foldl (step style) formatting
    if after.ended || after.arguments.isEmpty || !after.asked then after
    else run style pieces limit after

end Formatting

/-- What comes of printing arguments in a format: bytes, problems, and the arguments that the format
does not take in. -/
structure Formatted where
  bytes : Bytes
  problems : List FormatProblem
  left : List Text

/-- Prints arguments in a format. -/
def format (style : FormatStyle) (format : Text) (arguments : List Text) : Formatted :=
  let final := Formatting.run style (FormatPiece.read style format) (arguments.length + 1)
    ⟨[], [], arguments, false, false⟩
  ⟨final.printed.reverse.flatten, final.problems.reverse,
    if final.ended then [] else final.arguments⟩

end CompiledViews.Host
