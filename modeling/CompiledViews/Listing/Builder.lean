import CompiledViews.Code.Class
import CompiledViews.Listing.Style

/-!
# Writing a listing

A listing is written line by line. Along with the text three maps are kept, all between line
numbers that count from zero: from the line of a jump to the line of its target, from a line of the
source to the line of its last instruction, and from a line of code to the line of the source it
comes from.

Jumps are resolved when a method ends, among the instructions written since the last one ended, so
no jump leads into another method.
-/

namespace CompiledViews

/-- A finished listing. -/
structure Listing where
  text : Text
  jumps : NatMap Nat
  sourceToCode : NatMap Nat
  codeToSource : NatMap Nat
deriving DecidableEq, Repr

/-- How many branches come before the first return and how many after it. -/
structure BranchCount where
  hot : Nat
  cold : Nat
deriving DecidableEq, Repr

namespace BranchCount

/-- All branches. -/
def total (count : BranchCount) : Nat := count.hot + count.cold

/-- The count with one more instruction, and whether there has been a return by then. -/
def addInstruction (isa : Isa) (state : BranchCount × Bool) (instruction : Instruction) :
    BranchCount × Bool :=
  let (count, returned) := state
  let counted :=
    if isa.isBranch instruction.op then
      if returned then { count with cold := count.cold + 1 }
      else { count with hot := count.hot + 1 }
    else count
  (counted, returned || isa.isReturn instruction.op)

def ofMethod (method : Method) : BranchCount :=
  (method.instructions.foldl (addInstruction method.isa) (⟨0, 0⟩, false)).1

end BranchCount

namespace Listing

/-- A number with a noun, which takes its plural ending unless the number is one. -/
def counted (count : Nat) (noun ending : Text) : Text :=
  let one : Text := Text.ofNat count ++ " " ++ noun
  if count = 1 then one else one ++ ending

/-- How many instructions a method has, and in how many bytes. -/
def instructionSummary (method : Method) : Text :=
  let count := counted method.instructions.length "instruction" "s"
  match method.codeSize with
  | some size => count ++ " (" ++ Text.ofNat size ++ " bytes)"
  | none => count

/-- How many branches a method has, if any; for native code also before and after the first
return. -/
def branchSummary? (method : Method) : Option Text :=
  let branches := BranchCount.ofMethod method
  let count := counted branches.total "branch" "es"
  if branches.total = 0 then none
  else if method.isa.isNative then
    some (count ++ " (" ++ Text.ofNat branches.hot ++ " + " ++ Text.ofNat branches.cold ++ ")")
  else some count

def lineNumberColumn (style : Style) (lineNumber : Option Nat) : Text :=
  if style.showLineNumbers then
    Text.padRight (style.lineNumberWidth + 2)
      (match lineNumber with
      | some number => Text.ofNat number ++ ":"
      | none => " ")
  else []

/-- What is behind an instruction that calls a method of a known name. -/
def callArrow : Option Text → Text
  | some name => "  → " ++ name
  | none => []

def instructionLine (style : Style) (instruction : Instruction) (callee : Option Text) : Text :=
  Text.spaces (style.indent * 2) ++ lineNumberColumn style instruction.lineNumber ++
    instruction.shown ++ callArrow callee

/-- The lines above the instructions of a method. -/
def methodLines (style : Style) (method : Method) : List Text :=
  let body : Text := Text.spaces (style.indent * 2) ++ "-- "
  [Text.spaces style.indent ++ method.header, body ++ instructionSummary method] ++
    (branchSummary? method).toList.map (body ++ ·)

/-- A listing in the making. `written` holds the lines so far, the last one first; `addresses`,
`pendingJumps` and `lastLineNumber` are about the method at hand: the line of each address, the
jumps that wait for its end, and the last source line met. -/
structure Builder where
  style : Style
  written : List Text
  jumps : NatMap Nat
  sourceToCode : NatMap Nat
  codeToSource : NatMap Nat
  addresses : NatMap Nat
  pendingJumps : List (Nat × Nat)
  lastLineNumber : Option Nat
deriving DecidableEq, Repr

namespace Builder

/-- A listing without lines. -/
def new (style : Style) : Builder :=
  { style, written := [], jumps := .empty, sourceToCode := .empty, codeToSource := .empty
    addresses := .empty, pendingJumps := [], lastLineNumber := none }

/-- The number of the line that is written next. -/
def line (builder : Builder) : Nat := builder.written.length

/-- The text so far: its lines, each closed by a line feed. -/
def text (builder : Builder) : Text := builder.written.reverse.flatMap (· ++ ['\n'])

def write (builder : Builder) (line : Text) : Builder :=
  { builder with written := line :: builder.written }

def startClass (builder : Builder) (header : Text) : Builder := builder.write header

/-- The lines above the instructions of a method. -/
def startMethod (builder : Builder) (method : Method) : Builder :=
  (methodLines builder.style method).foldl write builder

/-- The line of an instruction, which calls the method `callee` if that is known. -/
def addInstruction (builder : Builder) (instruction : Instruction) (callee : Option Text) :
    Builder :=
  let line := builder.line
  let lastLineNumber := instruction.lineNumber <|> builder.lastLineNumber
  { builder with
    written := instructionLine builder.style instruction callee :: builder.written
    addresses := builder.addresses.insert instruction.address line
    pendingJumps := builder.pendingJumps ++ (instruction.jumpAddress.toList.map (line, ·))
    sourceToCode :=
      match instruction.lineNumber with
      | some number => builder.sourceToCode.insert number line
      | none => builder.sourceToCode
    codeToSource :=
      match lastLineNumber with
      | some number => builder.codeToSource.insert line number
      | none => builder.codeToSource
    lastLineNumber }

/-- The jumps of the method at hand whose target is one of its instructions, added to the jumps of
the listing. -/
def resolvedJumps (builder : Builder) : NatMap Nat :=
  builder.pendingJumps.foldl
    (fun jumps (line, target) =>
      match builder.addresses.get? target with
      | some targetLine => jumps.insert line targetLine
      | none => jumps)
    builder.jumps

/-- The end of a method: its jumps are resolved and an empty line is written. -/
def endMethod (builder : Builder) : Builder :=
  { builder with
    written := [] :: builder.written
    jumps := builder.resolvedJumps
    addresses := .empty
    pendingJumps := []
    lastLineNumber := none }

/-- The listing that has been written. -/
def build (builder : Builder) : Listing :=
  ⟨builder.text, builder.jumps, builder.sourceToCode, builder.codeToSource⟩

end Builder

end Listing

end CompiledViews
