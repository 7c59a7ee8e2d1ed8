import CompiledViews.Code.BuiltIn
import CompiledViews.Dump.Machine
import CompiledViews.Text.Form
import CompiledViews.Text.Numeral

/-!
# Reading `oatdump` dumps

The dump names its instruction set once, at the top. A class opens at a class line and lasts until
the next one; a method opens at a method line and lasts until the next class or method line. The
code of a method is printed twice, first in DEX under the mark `DEX CODE:` and then for the
processor under the mark `CODE:`; a method that lacks one of the marks is left out.

A native call does not say what it calls. A `StackMap` line right below it gives the address in the
DEX code that the call stands for, and the invocation there names the callee. If an `InlineInfo`
line follows, the address is one in the DEX code of the method that the line names.
-/

namespace CompiledViews.Dump.Oatdump

open Text Text.Form

/-- The line that opens a class: its name in slash notation. -/
def classLine : Form Text := do
  let _ ← digits
  literal ": L"
  let name ← span1 (· != ';')
  literal "; (offset=0x"
  let _ ← hexDigits
  literal ") (type_idx="
  let _ ← digits
  literal ")"
  let _ ← something
  pure name

/-- The line that opens a method: its declaration and its index. -/
def methodLine : Form (Text × Text) := do
  let _ ← blanks
  let _ ← digits
  literal ":"
  let _ ← someBlanks
  let before ← anythingUpTo "(dex_method_idx="
  let index ← digits
  literal ")"
  atEnd
  let header ← given (beforeLastBlank? before)
  pure (header, index)

/-- A line of native code: the address and the code. -/
def codeLine : Form (Text × Text) := do
  let _ ← blanks
  literal "0x"
  let address ← hexDigits
  literal ":"
  let _ ← blanks
  let _ ← hexDigits
  let _ ← someBlanks
  let code ← something
  pure (address, code)

/-- The size that a `CODE:` line states. -/
def sizeMark : Form Text := anywhere do
  literal "size="
  digits

/-- A line of DEX code: the address and the code. Between them stand groups of hexadecimal digits,
each followed by blanks, and a bar. -/
def dexLine : Form (Text × Text) := do
  let _ ← blanks
  literal "0x"
  let address ← hexDigits
  literal ":"
  let _ ← blanks
  let _ ← one isHexDigit
  let groups ← span1 fun character => isHexDigit character || isBlank character
  let _ ← given (groups.getLast?.filter isBlank)
  literal "|"
  let _ ← someBlanks
  let code ← something
  pure (address, code)

/-- DEX code that invokes a method: the declaration of the method after its return type. -/
def invocation : Form Text := do
  literal "invoke-"
  let _ ← span1 (· != '\x7d')
  literal "\x7d,"
  let _ ← blanks
  let _ ← span1 fun character => !isBlank character
  let _ ← someBlanks
  let before ← anythingUpTo "//"
  let _ ← something
  given (beforeLastBlank? before)

/-- The line that gives the DEX address of the call above it. -/
def stackMapLine : Form Text := do
  let _ ← blanks
  literal "StackMap"
  let _ ← somethingUpTo "dex_pc=0x"
  let address ← hexDigits
  literal ","
  let _ ← something
  atEnd
  pure address

/-- The line that says that a call was inlined: the DEX address and the method it is an address
of. -/
def inlineInfoLine : Form (Text × Text) := do
  let _ ← blanks
  literal "InlineInfo"
  let _ ← somethingUpTo "dex_pc=0x"
  let address ← hexDigits
  literal ","
  let _ ← blanks
  literal "method_index="
  let method ← run1 isDecimalDigit
  let _ ← something
  atEnd
  pure (address, method)

/-- A plus or a minus sign. -/
def isSign (character : Char) : Bool := character == '+' || character == '-'

/-- A processor architecture whose code can be read. -/
inductive Architecture where
  | arm64
  | x86_64
deriving DecidableEq, Repr

namespace Architecture

/-- The architecture with a name. -/
def ofName? (name : Text) : Option Architecture :=
  if name = "Arm64" then some arm64 else if name = "X86_64" then some x86_64 else none

/-- Its instruction set. -/
def isa : Architecture → Isa
  | arm64 => .aarch64
  | x86_64 => .x86_64

/-- The code of a jump: the address it leads to. -/
def jumpCode : Architecture → Form Text
  | arm64 => do
    let _ ← somethingUpTo " #"
    let _ ← one isSign
    literal "0x"
    let _ ← hexDigits
    literal " (addr 0x"
    let address ← hexDigits
    literal ")"
    atEnd
    pure address
  | x86_64 => do
    let _ ← somethingUpTo " "
    let _ ← one isSign
    let _ ← digits
    literal " (0x"
    let address ← exactly isHexDigit 8
    literal ")"
    atEnd
    pure address

def callCode : Architecture → Form Unit
  | arm64 => do
    literal "blr lr"
    atEnd
  | x86_64 => do
    literal "call "
    let _ ← something
    atEnd

end Architecture

/-- The declaration and the index of the method at hand. -/
structure MethodHead where
  header : Text
  index : Nat
deriving DecidableEq, Repr

/-- A method whose native code is being read. -/
structure OpenMethod where
  head : MethodHead
  codeSize : Option Nat
  references : NatMap Text
  instructions : List Instruction
deriving DecidableEq, Repr

/-- A call whose DEX address is not known yet: the texts of its address and its code. -/
structure OpenCall where
  address : Text
  code : Text
deriving DecidableEq, Repr

/-- What the reader is in the middle of within a class. -/
inductive Position where
  | betweenMethods
  | beforeEcho (head : MethodHead)
  | inEcho (head : MethodHead) (references : NatMap Text)
  | beforeCode (head : MethodHead) (references : NatMap Text)
  | inCode (method : OpenMethod)
  | afterCall (method : OpenMethod) (call : OpenCall)
  | afterStackMap (method : OpenMethod) (call : OpenCall) (callAddress : Nat)
deriving DecidableEq, Repr

/-- A class that is still open, with its name in dotted notation. -/
structure OpenClass where
  name : Text
  methods : List Method
deriving DecidableEq, Repr

/-- What the reader is in the middle of. -/
inductive Scope where
  | beforeMark
  | beforeName
  | betweenClasses (architecture : Architecture)
  | inClass (architecture : Architecture) (parent : OpenClass) (position : Position)
deriving DecidableEq, Repr

/-- The class, unless it is built in or has no method with code. -/
def OpenClass.complete (parent : OpenClass) : List Class :=
  if isBuiltIn parent.name || parent.methods.isEmpty then []
  else [⟨"class " ++ parent.name, parent.methods⟩]

def OpenClass.add (parent : OpenClass) (architecture : Architecture) (method : OpenMethod) :
    OpenClass :=
  { parent with
    methods := parent.methods ++
      [{ header := method.head.header
         index := some method.head.index
         codeSize := method.codeSize
         isa := architecture.isa
         instructions := method.instructions
         references := method.references }] }

def OpenMethod.add (method : OpenMethod) (instruction : Instruction) : OpenMethod :=
  { method with instructions := method.instructions ++ [instruction] }

/-- The instruction with the texts of its address and its code. -/
def readInstruction (place : Place) (line : OpenCall) (jump : Option Text) :
    Except Fault Instruction := do
  let target ← match jump with
    | some jump => (number hexadecimal? place jump).map some
    | none => pure none
  let address ← number hexadecimal? place line.address
  pure (Instruction.ofCode address ("0x" ++ line.address) line.code target)

/-- The method with a call that no `StackMap` line followed. -/
def OpenMethod.addUnmapped (method : OpenMethod) (architecture : Architecture)
    (call : OpenCall) : Except Fault OpenMethod := do
  let instruction ← readInstruction .lineBefore call (architecture.jumpCode.first? call.code)
  pure (method.add instruction)

/-- The method with a call that stands for the invocation at a DEX address. -/
def OpenMethod.addMapped (method : OpenMethod) (call : OpenCall) (callAddress : Nat)
    (callMethod : Option Nat) : Except Fault OpenMethod := do
  let instruction ← readInstruction .lineBefore call none
  pure (method.add { instruction with callAddress := some callAddress, callMethod })

/-- What becomes of a call that the next line, if there is one, says nothing about. -/
def settle (architecture : Architecture) : Position → Except Fault Position
  | .afterCall method call => (method.addUnmapped architecture call).map .inCode
  | .afterStackMap method call callAddress =>
    (method.addMapped call callAddress none).map .inCode
  | position => .ok position

/-- The class at the end of the method at hand. -/
def leave (architecture : Architecture) (parent : OpenClass) (position : Position) :
    Except Fault OpenClass := do
  match ← settle architecture position with
  | .inCode method => pure (parent.add architecture method)
  | _ => pure parent

/-- A line of native code, or another line among those. -/
def stepInCode (architecture : Architecture) (method : OpenMethod) (line : Text) :
    Except Fault Position :=
  match codeLine.first? line with
  | none => .ok (.inCode method)
  | some (address, code) =>
    if architecture.callCode.accepts code then .ok (.afterCall method ⟨address, code⟩)
    else do
      let jump := architecture.jumpCode.first? code
      let instruction ← readInstruction .thisLine ⟨address, code⟩ jump
      pure (.inCode (method.add instruction))

/-- A line between the DEX code and the native code. -/
def stepBeforeCode (head : MethodHead) (references : NatMap Text) (line : Text) :
    Except Fault Position :=
  if startsWith (trim line) "CODE:" then
    match sizeMark.first? line with
    | none => .ok (.inCode ⟨head, none, references, []⟩)
    | some size => do
      let codeSize ← number decimal? .thisLine size
      pure (.inCode ⟨head, some codeSize, references, []⟩)
  else .ok (.beforeCode head references)

/-- A line within a class that opens neither a class nor a method. -/
def stepInMethod (architecture : Architecture) (line : Text) :
    Position → Except Fault Position
  | .betweenMethods => .ok .betweenMethods
  | .beforeEcho head =>
    .ok (if startsWith (trim line) "DEX CODE:" then .inEcho head .empty else .beforeEcho head)
  | .inEcho head references =>
    match dexLine.first? line with
    | none => stepBeforeCode head references line
    | some (address, code) =>
      match invocation.first? code with
      | none => .ok (.inEcho head references)
      | some name => do
        let key ← number hexadecimal? .thisLine address
        pure (.inEcho head (references.insert key name))
  | .beforeCode head references => stepBeforeCode head references line
  | .inCode method => stepInCode architecture method line
  | .afterCall method call =>
    match stackMapLine.first? line with
    | some address => do
      let callAddress ← number hexadecimal? .thisLine address
      pure (.afterStackMap method call callAddress)
    | none => do stepInCode architecture (← method.addUnmapped architecture call) line
  | .afterStackMap method call callAddress =>
    match inlineInfoLine.first? line with
    | some (address, index) => do
      let inlinedAddress ← number hexadecimal? .lineBefore address
      let inlinedMethod ← number decimal? .lineBefore index
      .inCode <$> method.addMapped call inlinedAddress (some inlinedMethod)
    | none => do stepInCode architecture (← method.addMapped call callAddress none) line

def openClass (architecture : Architecture) (name : Text) : Scope :=
  .inClass architecture ⟨replaceChar '/' '.' name, []⟩ .betweenMethods

/-- What a line does. -/
def step : Scope → Text → Except Fault (List Class × Scope)
  | .beforeMark, line =>
    .ok ([], if startsWith (trim line) "INSTRUCTION SET:" then .beforeName else .beforeMark)
  | .beforeName, line =>
    match Architecture.ofName? (trim line) with
    | some architecture => .ok ([], .betweenClasses architecture)
    | none => .error (.unknownInstructionSet (trim line))
  | .betweenClasses architecture, line =>
    match classLine.first? line with
    | some name => .ok ([], openClass architecture name)
    | none => .ok ([], .betweenClasses architecture)
  | .inClass architecture parent position, line =>
    match classLine.first? line with
    | some name => do
      let closed ← leave architecture parent position
      pure (closed.complete, openClass architecture name)
    | none =>
      match methodLine.first? line with
      | some (header, indexText) => do
        let closed ← leave architecture parent position
        let index ← number decimal? .thisLine indexText
        pure ([], .inClass architecture closed (.beforeEcho ⟨header, index⟩))
      | none => do
        let next ← stepInMethod architecture line position
        pure ([], .inClass architecture parent next)

/-- What the end of the dump does: it ends the class that is open. -/
def finish : Scope → Except Fault (List Class)
  | .beforeMark => .error (.unexpectedEnd .instructionSetMark)
  | .beforeName => .error (.unexpectedEnd .instructionSetName)
  | .betweenClasses _ => .ok []
  | .inClass architecture parent position => do
    let closed ← leave architecture parent position
    pure closed.complete

def machine : Machine Scope := ⟨.beforeMark, step, finish⟩

def read (text : Text) : Except Error (List Class) := machine.read text

end CompiledViews.Dump.Oatdump
