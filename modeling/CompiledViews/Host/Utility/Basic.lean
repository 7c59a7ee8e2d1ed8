import CompiledViews.FileTree.Action
import CompiledViews.Host.Format.Numeral
import CompiledViews.Host.Output
import CompiledViews.Text.Lines
import CompiledViews.Text.Order
import CompiledViews.Text.NamedClass

/-!
# What utilities work with

Utilities are small programs that every host has. Each one is a function of its arguments, its
input, the environment and the files.
-/

namespace CompiledViews

/-- What a utility is called with: the name that it goes by, its arguments, its input or why that
cannot be read, how long it is if it is a file, the place of its output if that is a file, the
files, the places of those that are programs, the environment, and the milliseconds since the
beginning. -/
structure UtilityCall where
  name : Text
  arguments : List Text
  input : Except Text Bytes
  inputSize : Option Nat
  outputPlace : Option (List Text)
  files : FileTree
  programs : List (List Text)
  environment : List (Text × Text)
  time : Nat

namespace UtilityCall

/-- The bytes of the input, as far as it can be read. -/
def inputBytes (call : UtilityCall) : Bytes := call.input.toOption.getD []

end UtilityCall

/-- What a utility prints: bytes, or its input as it comes. -/
inductive UtilityOutput where
  | bytes (channel : Channel) (bytes : Bytes)
  | input
deriving DecidableEq, Repr

/-- How much of its input a utility reads: a number of bytes, or blocks of bytes up to that number,
the rest of which can be read again only if the input is a file. -/
inductive InputUse where
  | nothing
  | first (count : Nat)
  | blocks (count : Nat)
  | everything
deriving DecidableEq, Repr

/-- What comes of a utility: what it prints, newest first, its exit status, the milliseconds that it
sleeps, how much it reads, the files after it, and the places of files that it makes programs or no
programs. An `endless` one ends only if nobody reads on. -/
structure UtilityRun where
  printed : List UtilityOutput
  status : Nat
  time : Nat
  uses : InputUse
  endless : Bool
  files : FileTree
  marks : List (List Text × Bool)

/-- A utility at work. -/
abbrev Utility := ReaderT UtilityCall (StateM UtilityRun)

namespace Utility

/-- What comes of a utility that is called. -/
def runOn (utility : Utility Unit) (call : UtilityCall) : UtilityRun :=
  (utility call ⟨[], 0, 0, .nothing, false, call.files, []⟩).2

def arguments : Utility (List Text) := do return (← read).arguments

def print (bytes : Bytes) : Utility Unit :=
  modify fun run => { run with printed := .bytes .output bytes :: run.printed }

def printText (text : Text) : Utility Unit := print text.bytes

/-- Prints a text and the end of the line. -/
def printLine (line : Text) : Utility Unit := printText (line ++ "\n")

/-- Prints a text where complaints go. -/
def tell (text : Text) : Utility Unit :=
  modify fun run => { run with printed := .bytes .diagnostics text.bytes :: run.printed }

def fail (status : Nat) : Utility Unit := modify ({ · with status })

/-- Complains of something, and goes on to fail with a status. -/
def complainAs (status : Nat) (text : Text) : Utility Unit := do
  tell ((← read).name ++ ": " ++ text ++ "\n")
  fail status

def complain (text : Text) : Utility Unit := complainAs 1 text

/-- Tells where help is to be found. -/
def hint : Utility Unit := do
  let name := (← read).name
  tell ("Try \x27" ++ name ++ " --help\x27 for more information.\n")

/-- Complains of the way in which the utility is called. -/
def misuseAs (status : Nat) (text : Text) : Utility Unit := do
  complainAs status text
  hint

/-- Complains of the way in which the utility is called. -/
def misuse (text : Text) : Utility Unit := misuseAs 1 text

/-- A text between quotes, as complaints show it. -/
def quoted (text : Text) : Text := "\x27" ++ text ++ "\x27"

/-- Changes files, and complains if that fails. Tells whether it has been done. -/
def perform (action : FileAction Unit) (complaint : OsError → Text) : Utility Bool := do
  match action (← get).files with
  | .ok _ files =>
    modify ({ · with files })
    pure true
  | .error error files =>
    modify ({ · with files })
    complain (complaint error)
    pure false

/-- The bytes that a program takes of a file that never ends. -/
def endlessBytes : Nat := 400000

def readInput : Utility (Except Text Bytes) := do
  modify ({ · with uses := .everything })
  return (← read).input

/-- Reads the input only up to the end of a line. -/
def readLines (count : Nat) (input : Bytes) : Utility Unit :=
  modify ({ · with uses := .blocks ((input.lines.take count).flatten).length })

def isInput (path : Text) : Bool := path == "-" || path == "/dev/stdin" || path == "/dev/fd/0"

/-- What is read from a path, or from the input where it stands for that. -/
def readPath (path : Text) : Utility (Except Text Bytes) := do
  if isInput path then readInput
  else if path = "/dev/zero" ∨ path = "/dev/full" then
    modify ({ · with endless := true })
    pure (.ok (List.replicate endlessBytes 0))
  else
    match (← get).files.readBytes path with
    | .ok bytes => pure (.ok bytes)
    | .error error => pure (.error error.description)

/-- The value of a natural number in decimal notation. -/
def natural? (text : Text) : Option Nat :=
  if text ≠ [] ∧ text.all Char.isDigit then some (Host.Escape.spelled 10 text) else none

/-- The value of a whole number in decimal notation. -/
def integer? : Text → Option Int
  | '-' :: digits => (natural? digits).map fun value => -(value : Int)
  | digits => (natural? digits).map Int.ofNat

/-- The options of a call: letters, some with a value, and the other arguments. -/
structure Options where
  given : List (Char × Text)
  operands : List Text

namespace Options

/-- Whether an option is given. -/
def has (options : Options) (letter : Char) : Bool := options.given.any (·.1 == letter)

/-- The value of an option, the last one that is given. -/
def value? (options : Options) (letter : Char) : Option Text :=
  (options.given.reverse.find? (·.1 == letter)).map (·.2)

def values (options : Options) (letter : Char) : List Text :=
  (options.given.filter (·.1 == letter)).map (·.2)

/-- The options with one more before them. -/
def withOption (letter : Char) (value : Text) (options : Options) : Options :=
  { options with given := (letter, value) :: options.given }

/-- The options with one more operand before them. -/
def withOperand (operand : Text) (options : Options) : Options :=
  { options with operands := operand :: options.operands }

/-- The options of arguments, given the letters that may stand alone and those that take a value,
or what is wrong with them. -/
def read (plain valued : Text) : (limit : Nat) → List Text → Except Text Options
  | 0, arguments => .ok ⟨[], arguments⟩
  | _, [] => .ok ⟨[], []⟩
  | limit + 1, argument :: others =>
    match argument with
    | ['-', '-'] => .ok ⟨[], others⟩
    | '-' :: '-' :: _ => .error ("unrecognized option " ++ quoted argument)
    | '-' :: letter :: rest =>
      if plain.contains letter then
        (read plain valued limit (if rest = [] then others else ('-' :: rest) :: others)).map
          (withOption letter [])
      else if valued.contains letter then
        match rest, others with
        | _ :: _, _ => (read plain valued limit others).map (withOption letter rest)
        | [], value :: left => (read plain valued limit left).map (withOption letter value)
        | [], [] => .error ("option requires an argument -- " ++ quoted [letter])
      else .error ("invalid option -- " ++ quoted [letter])
    | _ => (read plain valued limit others).map (withOperand argument)

/-- A bound for the steps that it takes to read the options of arguments. -/
def bound (arguments : List Text) : Nat := arguments.flatten.length + arguments.length + 1

end Options

/-- Goes on with the options of the call, or complains of them. -/
def withOptionsAs (status : Nat) (plain valued : Text) (body : Options → Utility Unit) :
    Utility Unit := do
  let given ← arguments
  match Options.read plain valued (Options.bound given) given with
  | .ok options => body options
  | .error complaint => misuseAs status complaint

/-- Goes on with the options of the call, or complains of them. -/
def withOptions (plain valued : Text) (body : Options → Utility Unit) : Utility Unit :=
  withOptionsAs 1 plain valued body

/-- Goes on with the operands of a call, which must not be missing. -/
def withOperands (plain valued : Text) (body : Options → Utility Unit) : Utility Unit :=
  withOptions plain valued fun options =>
    if options.operands.isEmpty then misuse "missing operand" else body options

/-- Goes on with what is read from a path; complains if that fails. -/
def withBytes (path : Text) (complaint : Text → Text) (body : Bytes → Utility Unit) :
    Utility Unit := do
  match ← readPath path with
  | .ok bytes => body bytes
  | .error reason => complain (complaint reason)

/-- The complaint of a path that cannot be read. -/
def pathComplaint (path reason : Text) : Text := path ++ ": " ++ reason

/-- Goes on with what is read from each path, or from the input if there is none. -/
def withEach (paths : List Text) (body : Bytes → Utility Unit) : Utility Unit :=
  (if paths.isEmpty then [['-']] else paths).forM fun path =>
    withBytes path (pathComplaint path) body

/-- The lines of bytes, each one as a text without its end. -/
def textLines (bytes : Bytes) : List Text :=
  bytes.lines.map fun line => Bytes.loose (line.filter (· != Bytes.lineFeed))

end Utility

end CompiledViews
