import CompiledViews.Code.BuiltIn
import CompiledViews.Dump.Descriptor
import CompiledViews.Dump.Machine
import CompiledViews.Text.Form
import CompiledViews.Text.Numeral

/-!
# Reading `dexdump` dumps

A class is a section from a `Class #` line to a `source_file_idx` line. Each `insns size` line in
it announces the code of a method: a line that ends in the name and the descriptor of the method,
the instructions, which are the lines that do not begin with a space, and somewhere below them the
mark `positions` with the line number table.
-/

namespace CompiledViews.Dump.Dexdump

open Text Text.Form

/-- An entry of a line number table: the address and the line. -/
def positionLine : Form (Text × Text) := do
  let _ ← span isBlank
  literal "0x"
  let address ← span1 isLowerHexDigit
  literal " line="
  let line ← digits
  atEnd
  pure (address, line)

/-- The code of a jump, address included: the address it leads to. -/
def jumpCode : Form Text := do
  let _ ← exactly isLowerHexDigit 4
  literal ": "
  let _ ← anythingUpTo " "
  let address ← exactly isLowerHexDigit 4
  literal " // "
  let _ ← one fun character => character == '+' || character == '-'
  let _ ← exactly isLowerHexDigit 4
  atEnd
  pure address

/-- A class that is still open. -/
structure OpenClass where
  name : Text
  methods : List Method
deriving DecidableEq, Repr

/-- A method whose code is being read. -/
structure OpenMethod where
  codeSize : Nat
  name : Text
  descriptor : Text
  instructions : List Instruction
deriving DecidableEq, Repr

/-- What the reader is in the middle of. -/
inductive Scope where
  | betweenClasses
  | beforeDescriptor
  | inClass (parent : OpenClass)
  | beforeSignature (parent : OpenClass) (codeSize : Nat)
  | inCode (parent : OpenClass) (method : OpenMethod)
  | beforePositions (parent : OpenClass) (method : OpenMethod)
  | inPositions (parent : OpenClass) (method : OpenMethod) (table : NatMap Nat)
deriving DecidableEq, Repr

/-- The class, unless it has no method with code. -/
def OpenClass.complete (parent : OpenClass) : List Class :=
  if parent.methods = [] then [] else [⟨"class " ++ parent.name, parent.methods⟩]

def OpenMethod.add (method : OpenMethod) (instruction : Instruction) : OpenMethod :=
  { method with instructions := method.instructions ++ [instruction] }

/-- The class with one more method, which has the given line number table. A method whose
descriptor cannot be decoded is noticed only here, after the last line of its table. -/
def OpenClass.add (parent : OpenClass) (method : OpenMethod) (table : NatMap Nat) :
    Except Fault OpenClass :=
  match Descriptor.decode method.descriptor with
  | none => .error (.unexpected .lineBefore .methodDescriptor method.descriptor)
  | some (result, parameters) =>
    .ok { parent with
      methods := parent.methods ++
        [{ header := result ++ " " ++ parent.name ++ "." ++ method.name ++ "(" ++
             join ", " parameters ++ ")"
           index := none
           codeSize := some method.codeSize
           isa := .dex
           instructions := Instruction.withLineNumbers table method.instructions
           references := .empty }] }

/-- The name of the class on a descriptor line: what stands between the first two quotes, in dotted
notation. -/
def className? (line : Text) : Option Text :=
  if startsWith (trim line) "Class descriptor" then
    match splitAll '\x27' line with
    | _ :: descriptor :: _ =>
      some (replaceChar '/' '.'
        (dropRightWhile (· == ';') ((after? "L" descriptor).getD descriptor)))
    | _ => none
  else none

/-- The line below `Class #`. -/
def stepDescriptor (line : Text) : Except Fault Scope :=
  match className? line with
  | none => .error (.unexpected .thisLine .classDescriptorLine line)
  | some name => .ok (if isBuiltIn name then .betweenClasses else .inClass ⟨name, []⟩)

/-- The size in bytes that a trimmed `insns size` line states in units of two bytes. -/
def codeSize (line : Text) : Except Fault Nat :=
  match (splitOnce ":" line).bind fun (_, value) => (words value).head? with
  | none => .error (.unexpected .thisLine .instructionCount line)
  | some units => do
    let count ← number decimal? .thisLine units
    if count * 2 < wordLimit then pure (count * 2) else .error (.invalidNumber .thisLine units)

/-- A line in a class, outside its methods. -/
def stepInClass (parent : OpenClass) (line : Text) : Except Fault (List Class × Scope) :=
  if startsWith (trim line) "source_file_idx" then .ok (parent.complete, .betweenClasses)
  else if startsWith (trim line) "insns size" then
    (codeSize (trim line)).map fun size => ([], .beforeSignature parent size)
  else .ok ([], .inClass parent)

/-- The line with the name and the descriptor of a method, which stand after its last period. -/
def stepSignature (parent : OpenClass) (codeSize : Nat) (line : Text) : Except Fault Scope :=
  match splitOnce ":" (afterLast '.' line) with
  | none => .error (.unexpected .thisLine .methodSignature line)
  | some (name, descriptor) => .ok (.inCode parent ⟨codeSize, name, descriptor, []⟩)

/-- The instruction on a line: a label and code after the first bar, or after nothing. -/
def readInstruction (line : Text) : Except Fault Instruction :=
  let code := ((splitOnce "|" line).map (·.2)).getD line
  match splitOnce ": " code with
  | none => .error (.unexpected .thisLine .instruction line)
  | some (label, body) => do
    let address ← number hexadecimal? .thisLine label
    let target ← match jumpCode.first? code with
      | some jump => (number hexadecimal? .thisLine jump).map some
      | none => pure none
    pure (Instruction.ofCode address label body target)

/-- A line between the instructions of a method and its line number table. -/
def stepBeforePositions (parent : OpenClass) (method : OpenMethod) (line : Text) : Scope :=
  if startsWith (trim line) "positions" then .inPositions parent method .empty
  else .beforePositions parent method

/-- What a line does. -/
def step : Scope → Text → Except Fault (List Class × Scope)
  | .betweenClasses, line =>
    .ok ([], if startsWith (trim line) "Class #" then .beforeDescriptor else .betweenClasses)
  | .beforeDescriptor, line => (stepDescriptor line).map ([], ·)
  | .inClass parent, line => stepInClass parent line
  | .beforeSignature parent codeSize, line => (stepSignature parent codeSize line).map ([], ·)
  | .inCode parent method, line =>
    if startsWith line " " then .ok ([], stepBeforePositions parent method line)
    else (readInstruction line).map fun instruction => ([], .inCode parent (method.add instruction))
  | .beforePositions parent method, line => .ok ([], stepBeforePositions parent method line)
  | .inPositions parent method table, line =>
    match positionLine.first? line with
    | some (address, sourceLine) => do
      let key ← number hexadecimal? .thisLine address
      let value ← number decimal? .thisLine sourceLine
      pure ([], .inPositions parent method (table.insert key value))
    | none => do stepInClass (← parent.add method table) line

/-- What the end of the dump does: a class must not be open there. -/
def finish : Scope → Except Fault (List Class)
  | .betweenClasses => .ok []
  | .beforeDescriptor => .error (.unexpectedEnd .classDescriptor)
  | .inClass _ => .error (.unexpectedEnd .sourceFileIndex)
  | .beforeSignature .. => .error (.unexpectedEnd .methodSignature)
  | .inCode .. | .beforePositions .. => .error (.unexpectedEnd .positions)
  | .inPositions parent method table => do
    let _ ← parent.add method table
    .error (.unexpectedEnd .sourceFileIndex)

def machine : Machine Scope := ⟨.betweenClasses, step, finish⟩

def read (text : Text) : Except Error (List Class) := machine.read text

end CompiledViews.Dump.Dexdump
