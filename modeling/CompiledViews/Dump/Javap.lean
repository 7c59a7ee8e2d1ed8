import CompiledViews.Code.BuiltIn
import CompiledViews.Dump.Machine
import CompiledViews.Text.Form
import CompiledViews.Text.Numeral

/-!
# Reading `javap` dumps

A class opens with a line such as `public final class A {` and ends at a line that is a closing
brace. Members are indented by two spaces. A member with code is followed by the mark `Code:`, its
instructions and, some lines later, its line number table; the search for the table ends at the
next member with a parameter list or at the end of the class. A static initialiser has no such list,
so a member without a table takes the one of a static initialiser that comes next.
-/

namespace CompiledViews.Dump.Javap

open Text Text.Form

/-- The first character of a class name. -/
def isNameStart (character : Char) : Bool := character == '_' || character.isAlpha

/-- A later character of a qualified class name. -/
def isNamePart (character : Char) : Bool :=
  character == '_' || character == '.' || character == '$' || isWord character

/-- The line that opens a class: what stands before the brace up to the name, and the name. The
name has at least two characters. -/
def classLine : Form (Text × Text) := do
  let opening ← covering do
    let _ ← anythingUpTo " class "
    let first ← one isNameStart
    let others ← span1 isNamePart
    pure (first :: others)
  let _ ← anythingUpTo "\x7b"
  atEnd
  pure opening

/-- What follows the declaration of a method: the exceptions it throws, if any, and a semicolon. -/
def declarationEnd : Form Unit := do
  either (literal ";") do
    literal " throws "
    let _ ← somethingUpTo ";"
    pure ()
  atEnd

/-- The line of a method or constructor: the declaration without exceptions. -/
def memberLine : Form Text := do
  literal "  "
  let (header, _) ← covering (anythingUpTo ")")
  declarationEnd
  pure header

/-- A trimmed instruction: its address and its code. -/
def instructionLine : Form (Text × Text) := do
  let address ← digits
  literal ":"
  let _ ← span1 (· == ' ')
  let code ← anything
  atEnd
  pure (address, code)

/-- The code of a jump: the address it leads to. -/
def jumpCode : Form Text := do
  either (literal "goto") do
    literal "if"
    let _ ← span fun character => character == '_' || character.isLower
    pure ()
  let _ ← span1 (· == ' ')
  let address ← digits
  atEnd
  pure address

/-- A trimmed entry of a line number table: the line and the address. -/
def lineEntry : Form (Text × Text) := do
  literal "line "
  let line ← digits
  literal ": "
  let address ← digits
  atEnd
  pure (line, address)

/-- The line that ends a class, and once trimmed a switch table. -/
def closing : Text := "\x7d"

/-- A class that is still open. -/
structure OpenClass where
  header : Text
  name : Text
  methods : List Method
deriving DecidableEq, Repr

/-- A method whose code is being read. -/
structure OpenMethod where
  header : Text
  instructions : List Instruction
deriving DecidableEq, Repr

/-- What the reader is in the middle of. -/
inductive Scope where
  | betweenClasses
  | inClass (parent : OpenClass)
  | afterHeader (parent : OpenClass) (header : Text)
  | inCode (parent : OpenClass) (method : OpenMethod)
  | inSwitch (parent : OpenClass) (method : OpenMethod) (switch : Instruction) (cases : List Text)
  | beforeTable (parent : OpenClass) (method : OpenMethod)
  | inTable (parent : OpenClass) (method : OpenMethod) (table : NatMap Nat)
deriving DecidableEq, Repr

/-- The class, unless it is built in. -/
def OpenClass.complete (parent : OpenClass) : List Class :=
  if isBuiltIn parent.name then [] else [⟨parent.header, parent.methods⟩]

/-- The class with one more method, which has the given line number table. -/
def OpenClass.add (parent : OpenClass) (method : OpenMethod) (table : NatMap Nat) : OpenClass :=
  { parent with
    methods := parent.methods ++
      [{ header := method.header
         index := none
         codeSize := none
         isa := .byteCode
         instructions := Instruction.withLineNumbers table method.instructions
         references := .empty }] }

def OpenMethod.add (method : OpenMethod) (instruction : Instruction) : OpenMethod :=
  { method with instructions := method.instructions ++ [instruction] }

def readInstruction (address code : Text) : Except Fault Instruction := do
  let start ← number decimal? .thisLine address
  let target ← match jumpCode.first? code with
    | some jump => (number decimal? .thisLine jump).map some
    | none => pure none
  pure (Instruction.ofCode start address code target)

/-- Whether the operands of an instruction are a table on the lines below it. -/
def isSwitch (instruction : Instruction) : Bool :=
  instruction.op == "tableswitch" || instruction.op == "lookupswitch"

/-- The operands of a switch with the given cases. -/
def switchOperands (cases : List Text) : Text :=
  "\x7b " ++ join ", " cases ++ " \x7d"

/-- A line in a class, outside its methods. -/
def stepInClass (parent : OpenClass) (line : Text) : List Class × Scope :=
  if line = closing then (parent.complete, .betweenClasses)
  else
    match memberLine.first? line with
    | some header => ([], .afterHeader parent header)
    | none => ([], .inClass parent)

/-- A line between the instructions of a method and its line number table. -/
def stepBeforeTable (parent : OpenClass) (method : OpenMethod) (line : Text) :
    List Class × Scope :=
  if line = closing || memberLine.accepts line then stepInClass (parent.add method .empty) line
  else if trim line = "LineNumberTable:" then ([], .inTable parent method .empty)
  else ([], .beforeTable parent method)

/-- What a line does. -/
def step : Scope → Text → Except Fault (List Class × Scope)
  | .betweenClasses, line =>
    match classLine.first? line with
    | some (header, name) => .ok ([], .inClass ⟨header, name, []⟩)
    | none => .ok ([], .betweenClasses)
  | .inClass parent, line => .ok (stepInClass parent line)
  | .afterHeader parent header, line =>
    if trim line = "Code:" then .ok ([], .inCode parent ⟨header, []⟩)
    else .ok (stepInClass parent line)
  | .inCode parent method, line =>
    match instructionLine.first? (trim line) with
    | none => .ok (stepBeforeTable parent method line)
    | some (address, code) => do
      let instruction ← readInstruction address code
      if isSwitch instruction then pure ([], .inSwitch parent method instruction [])
      else pure ([], .inCode parent (method.add instruction))
  | .inSwitch parent method switch cases, line =>
    if trim line = closing then
      .ok ([], .inCode parent (method.add { switch with operands := switchOperands cases }))
    else .ok ([], .inSwitch parent method switch (cases ++ [trim line]))
  | .beforeTable parent method, line => .ok (stepBeforeTable parent method line)
  | .inTable parent method table, line =>
    match lineEntry.first? (trim line) with
    | none => .ok (stepInClass (parent.add method table) line)
    | some (sourceLine, address) => do
      let value ← number decimal? .thisLine sourceLine
      let key ← number decimal? .thisLine address
      pure ([], .inTable parent method (table.insert key value))

/-- What the end of the dump does: a class must not be open there. -/
def finish : Scope → Except Fault (List Class)
  | .betweenClasses => .ok []
  | .inSwitch .. => .error (.unexpectedEnd .switchEnd)
  | _ => .error (.unexpectedEnd .closingBrace)

def machine : Machine Scope := ⟨.betweenClasses, step, finish⟩

def read (text : Text) : Except Error (List Class) := machine.read text

end CompiledViews.Dump.Javap
