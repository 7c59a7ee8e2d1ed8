import CompiledViews.Proofs.Dump.Oatdump.Lines
import CompiledViews.Proofs.Text.Exact
import CompiledViews.Proofs.Text.Lines
import CompiledViews.Proofs.Text.Numeral
import Mathlib.Data.List.Infix
import Mathlib.Tactic.MkIffOfInductiveProp

/-!
# What `oatdump` prints

A dump names its architecture and then prints its classes one after the other, each with all of its
methods. A method without code is its declaration. The code of a method is printed as an echo of the
DEX code and as native code, and below a native call two lines may say what it stands for. Between
these parts there are other lines, none of which is taken for one of them.

This file says what the parts look like, what they stand for, and which numbers they name.
-/

namespace CompiledViews.Dump.Oatdump

open Text Text.Form

/-- The invocation of a method: its kind and its registers, the type and the name of the method, and
a comment. -/
structure Invocation where
  registers : Text
  typeGap : Text
  type : Text
  nameGap : Text
  name : Text
  comment : Text
deriving DecidableEq, Repr

inductive DexCode where
  | invoke (invocation : Invocation)
  | other (code : Text)
deriving DecidableEq, Repr

/-- A line of DEX code: blanks, the address, blanks, the words of the code with blanks behind each,
and behind a bar and blanks the code. -/
structure EchoLine where
  margin : Text
  address : Text
  gap : Text
  words : Text
  barGap : Text
  code : DexCode
deriving DecidableEq, Repr

inductive NativeCode where
  | jump (front : Text) (sign : Char) (offset target : Text)
  | other (code : Text)
deriving DecidableEq, Repr

/-- A line of native code. -/
structure CodeLine where
  margin : Text
  address : Text
  gap : Text
  bytes : Text
  codeGap : Text
  code : NativeCode
deriving DecidableEq, Repr

/-- The DEX address of a call, and what stands around it. -/
structure StackMap where
  margin : Text
  front : Text
  address : Text
  back : Text
deriving DecidableEq, Repr

/-- The DEX address of an inlined call and the index of the method it is in. -/
structure InlineInfo where
  margin : Text
  front : Text
  address : Text
  gap : Text
  index : Text
  back : Text
deriving DecidableEq, Repr

/-- What is said about the callee of the code above. -/
structure CallSite where
  map : StackMap
  inlined : Option InlineInfo
deriving DecidableEq, Repr

/-- A line of native code with the lines up to the next one. -/
structure CodeGroup where
  line : CodeLine
  site : Option CallSite
  after : List Text
deriving DecidableEq, Repr

/-- The native code of a method: what stands around the size on the mark for it, other lines, and
the lines of code. -/
structure NativePart where
  front : Text
  size : Text
  back : Text
  before : List Text
  groups : List CodeGroup
deriving DecidableEq, Repr

/-- The codes of a method: the mark for the DEX code, the lines of it, other lines, and the native
code. -/
structure Body where
  mark : Text
  echo : List EchoLine
  gap : List Text
  native : Option NativePart
deriving DecidableEq, Repr

/-- A method: what its first line says, other lines, and its codes. -/
structure Member where
  margin : Text
  number : Text
  gap : Text
  declaration : Text
  index : Text
  before : List Text
  body : Option Body
deriving DecidableEq, Repr

/-- A class: what its first line says, other lines, and its methods. -/
structure Block where
  number : Text
  path : Text
  offset : Text
  typeIndex : Text
  status : Text
  before : List Text
  members : List Member
deriving DecidableEq, Repr

/-- A dump: the lines up to the mark for the architecture, the line that names it, other lines, and
the classes. -/
structure Printout where
  preface : List Text
  mark : Text
  nameLine : Text
  architecture : Architecture
  before : List Text
  blocks : List Block
deriving DecidableEq, Repr

/-! ### The lines of the parts -/

def Invocation.code (invocation : Invocation) : Text :=
  "invoke-" ++ (invocation.registers ++ ("\x7d," ++ (invocation.typeGap ++ (invocation.type ++
    (invocation.nameGap ++ (invocation.name ++ (" //" ++ invocation.comment)))))))

def DexCode.text : DexCode → Text
  | invoke invocation => invocation.code
  | other code => code

def EchoLine.text (line : EchoLine) : Text :=
  line.margin ++ ("0x" ++ (line.address ++ (":" ++ (line.gap ++ (line.words ++ ("|" ++
    (line.barGap ++ line.code.text)))))))

/-- The code of a jump ends in the address it leads to. -/
def NativeCode.text : Architecture → NativeCode → Text
  | .arm64, jump front sign offset target =>
    front ++ (" #" ++ (sign :: ("0x" ++ (offset ++ (" (addr 0x" ++ (target ++ ")"))))))
  | .x86_64, jump front sign offset target =>
    front ++ (" " ++ (sign :: (offset ++ (" (0x" ++ (target ++ ")")))))
  | _, other code => code

def CodeLine.text (architecture : Architecture) (line : CodeLine) : Text :=
  line.margin ++ ("0x" ++ (line.address ++ (":" ++ (line.gap ++ (line.bytes ++ (line.codeGap ++
    line.code.text architecture))))))

def StackMap.line (map : StackMap) : Text :=
  map.margin ++ ("StackMap" ++ (map.front ++ ("dex_pc=0x" ++ (map.address ++ ("," ++ map.back)))))

def InlineInfo.line (info : InlineInfo) : Text :=
  info.margin ++ ("InlineInfo" ++ (info.front ++ ("dex_pc=0x" ++ (info.address ++ ("," ++
    (info.gap ++ ("method_index=" ++ (info.index ++ info.back))))))))

def CallSite.lines (site : CallSite) : List Text :=
  site.map.line :: site.inlined.toList.map InlineInfo.line

def CodeGroup.lines (architecture : Architecture) (group : CodeGroup) : List Text :=
  group.line.text architecture :: (group.site.toList.flatMap CallSite.lines ++ group.after)

def NativePart.mark (part : NativePart) : Text :=
  part.front ++ ("size=" ++ (part.size ++ part.back))

def NativePart.lines (architecture : Architecture) (part : NativePart) : List Text :=
  part.mark :: (part.before ++ part.groups.flatMap (CodeGroup.lines architecture))

def Body.lines (architecture : Architecture) (body : Body) : List Text :=
  body.mark :: (body.echo.map EchoLine.text ++
    (body.gap ++ body.native.toList.flatMap (NativePart.lines architecture)))

def Member.opening (member : Member) : Text :=
  member.margin ++ (member.number ++ (":" ++ (member.gap ++ (member.declaration ++
    (" (dex_method_idx=" ++ (member.index ++ ")"))))))

def Member.lines (architecture : Architecture) (member : Member) : List Text :=
  member.opening :: (member.before ++ member.body.toList.flatMap (Body.lines architecture))

def Block.opening (block : Block) : Text :=
  block.number ++ (": L" ++ (block.path ++ ("; (offset=0x" ++ (block.offset ++ (") (type_idx=" ++
    (block.typeIndex ++ (")" ++ block.status)))))))

def Block.lines (architecture : Architecture) (block : Block) : List Text :=
  block.opening :: (block.before ++ block.members.flatMap (Member.lines architecture))

def Printout.lines (printout : Printout) : List Text :=
  printout.preface ++ (printout.mark :: printout.nameLine :: (printout.before ++
    printout.blocks.flatMap (Block.lines printout.architecture)))

/-! ### What the parts stand for -/

namespace Architecture

/-- The name by which a dump calls the architecture. -/
def name : Architecture → Text
  | arm64 => "Arm64"
  | x86_64 => "X86_64"

/-- Whether code calls a method. -/
def calls : Architecture → Text → Bool
  | arm64, code => code == ("blr lr" : Text)
  | x86_64, code => startsWith code "call " && decide (5 < code.length)

end Architecture

/-- The DEX address of an invocation and the name of the method. -/
def EchoLine.reference? (line : EchoLine) : Option (Nat × Text) :=
  match line.code with
  | .invoke invocation => some (line.address.hexValue, invocation.name)
  | .other _ => none

/-- The address that a jump leads to. -/
def NativeCode.target? : NativeCode → Option Text
  | jump _ _ _ target => some target
  | other _ => none

/-- The DEX address that a call stands for, and the method it is in if the call was inlined. -/
def CallSite.callee (site : CallSite) : Nat × Option Nat :=
  match site.inlined with
  | some info => (info.address.hexValue, some info.index.decimalValue)
  | none => (site.map.address.hexValue, none)

/-- What is said about the callee, if the code calls anything. -/
def CodeGroup.callSite? (architecture : Architecture) (group : CodeGroup) : Option CallSite :=
  group.site.filter fun _ => architecture.calls (group.line.code.text architecture)

/-- The instruction on a line, with the address that it jumps to. -/
def CodeLine.instruction (architecture : Architecture) (line : CodeLine) (target : Option Text) :
    Instruction :=
  Instruction.ofCode line.address.hexValue ("0x" ++ line.address) (line.code.text architecture)
    (target.map hexValue)

/-- A call leads to its callee if anything is said about it, otherwise to where its code says. -/
def CodeGroup.instruction (architecture : Architecture) (group : CodeGroup) : Instruction :=
  match group.callSite? architecture with
  | some site =>
    { group.line.instruction architecture none with
      callAddress := some site.callee.1
      callMethod := site.callee.2 }
  | none => group.line.instruction architecture group.line.code.target?

/-- The invocations in the DEX code; of several at an address the last one counts. -/
def Body.references (body : Body) : NatMap Text := .ofList (body.echo.filterMap EchoLine.reference?)

/-- The method with both codes, if there are both. -/
def Body.method? (architecture : Architecture) (head : MethodHead) (body : Body) : Option Method :=
  body.native.map fun part =>
    { header := head.header
      index := some head.index
      codeSize := some part.size.decimalValue
      isa := architecture.isa
      instructions := part.groups.map (CodeGroup.instruction architecture)
      references := body.references }

def Member.head (member : Member) : MethodHead := ⟨member.declaration, member.index.decimalValue⟩

def Member.method? (architecture : Architecture) (member : Member) : Option Method :=
  member.body.bind (Body.method? architecture member.head)

/-- The name of the class in dotted notation. -/
def Block.name (block : Block) : Text := replaceChar '/' '.' block.path

/-- The class with its methods that have code, unless it has none or is built in. -/
def Block.classes (architecture : Architecture) (block : Block) : List Class :=
  let methods := block.members.filterMap (Member.method? architecture)
  if isBuiltIn block.name || methods.isEmpty then [] else [⟨"class " ++ block.name, methods⟩]

def Printout.classes (printout : Printout) : List Class :=
  printout.blocks.flatMap (Block.classes printout.architecture)

/-! ### The numbers that the parts name

Only numbers that the reader has a use for are counted, so not the code itself, and not the address
of DEX code that invokes nothing. -/

def CallSite.numbers (site : CallSite) : List Nat :=
  site.map.address.hexValue ::
    site.inlined.toList.flatMap fun info => [info.address.hexValue, info.index.decimalValue]

def CodeLine.numbers (line : CodeLine) : List Nat :=
  line.address.hexValue :: (line.code.target?.map hexValue).toList

def CodeGroup.numbers (architecture : Architecture) (group : CodeGroup) : List Nat :=
  group.line.numbers ++ (group.callSite? architecture).toList.flatMap CallSite.numbers

def NativePart.numbers (architecture : Architecture) (part : NativePart) : List Nat :=
  part.size.decimalValue :: part.groups.flatMap (CodeGroup.numbers architecture)

def Body.numbers (architecture : Architecture) (body : Body) : List Nat :=
  (body.echo.filterMap EchoLine.reference?).map (·.1) ++
    body.native.toList.flatMap (NativePart.numbers architecture)

def Member.numbers (architecture : Architecture) (member : Member) : List Nat :=
  member.index.decimalValue :: member.body.toList.flatMap (Body.numbers architecture)

def Printout.numbers (printout : Printout) : List Nat :=
  printout.blocks.flatMap fun block =>
    block.members.flatMap (Member.numbers printout.architecture)

/-! ### Which parts are printed -/

/-- The comment begins at the last two slashes. -/
@[mk_iff]
structure Invocation.IsPrinted (invocation : Invocation) : Prop where
  registers : invocation.registers.IsRun (· != '\x7d')
  typeGap : invocation.typeGap.IsRun isBlank
  type : invocation.type.IsRun fun character => !isBlank character
  nameGap : invocation.nameGap.IsRun isBlank
  name : isFlush invocation.name = true
  comment : invocation.comment ≠ [] ∧ ¬ "//".toList <:+: '/' :: invocation.comment

def DexCode.IsPrinted : DexCode → Prop
  | invoke invocation => invocation.IsPrinted
  | other code => isFlush code = true ∧ invocation.accepts code = false

@[mk_iff]
structure EchoLine.IsPrinted (line : EchoLine) : Prop where
  margin : line.margin.IsRun isBlank
  address : line.address.IsRun isHexDigit
  gap : line.gap.IsRun isBlank
  first : ∃ digit ∈ line.words.head?, isHexDigit digit = true
  words : ∀ character ∈ line.words, isHexDigit character = true ∨ isBlank character = true
  last : ∃ blank ∈ line.words.getLast?, isBlank blank = true
  barGap : line.barGap.IsRun isBlank
  code : line.code.IsPrinted

/-- What counts as the number of a jump's target is up to the architecture. -/
def NativeCode.IsPrinted (architecture : Architecture) : NativeCode → Prop
  | jump front sign offset target =>
    isFlush front = true ∧ isSign sign = true ∧
      match architecture with
      | .arm64 => offset.IsRun isHexDigit ∧ target.IsRun isHexDigit
      | .x86_64 => offset.IsRun isDecimalDigit ∧ target.IsRun isHexDigit ∧ target.length = 8
  | other code => isFlush code = true ∧ architecture.jumpCode.accepts code = false

@[mk_iff]
structure CodeLine.IsPrinted (architecture : Architecture) (line : CodeLine) : Prop where
  margin : line.margin.IsRun isBlank
  address : line.address.IsRun isHexDigit
  gap : line.gap.IsRun isBlank
  bytes : line.bytes.IsRun isHexDigit
  codeGap : line.codeGap.IsRun isBlank
  code : line.code.IsPrinted architecture

/-- The address stands behind the last mark for one. -/
@[mk_iff]
structure StackMap.IsPrinted (map : StackMap) : Prop where
  margin : map.margin.IsRun isBlank
  front : map.front ≠ []
  address : map.address.IsRun isHexDigit
  back : map.back ≠ []
  isLast : ¬ "dex_pc=0x".toList <:+: map.address ++ ("," ++ map.back)

@[mk_iff]
structure InlineInfo.IsPrinted (info : InlineInfo) : Prop where
  margin : info.margin.IsRun isBlank
  front : info.front ≠ []
  address : info.address.IsRun isHexDigit
  gap : info.gap.IsRun isBlank
  index : info.index.IsRun Char.isDigit
  back : ∃ head ∈ info.back.head?, isDecimalDigit head = false
  isLast : ¬ "dex_pc=0x".toList <:+:
    info.address ++ ("," ++ (info.gap ++ ("method_index=" ++ (info.index ++ info.back))))

@[mk_iff]
structure CallSite.IsPrinted (site : CallSite) : Prop where
  map : site.map.IsPrinted
  inlined : ∀ info ∈ site.inlined, info.IsPrinted

/-- Whether a line would go on with what is said about the callee of the code above. -/
def CallSite.goesOn (site : CallSite) (line : Text) : Bool :=
  site.inlined.isNone && inlineInfoLine.accepts line

def CodeGroup.goesOn (group : CodeGroup) (line : Text) : Bool :=
  match group.site with
  | none => stackMapLine.accepts line
  | some site => site.goesOn line

/-- Whether a line is passed over among native code. -/
def isOther (line : Text) : Bool := !isBoundary line && !codeLine.accepts line

@[mk_iff]
structure CodeGroup.IsPrinted (architecture : Architecture) (group : CodeGroup) : Prop where
  line : group.line.IsPrinted architecture
  site : ∀ site ∈ group.site, site.IsPrinted
  after : ∀ line ∈ group.after, isOther line = true
  first : architecture.calls (group.line.code.text architecture) = true →
    ∀ line ∈ group.after.head?, group.goesOn line = false

/-- The size stands behind the first mark for one. -/
@[mk_iff]
structure NativePart.IsPrinted (architecture : Architecture) (part : NativePart) : Prop where
  mark : marksCode part.mark = true
  isFirst : ¬ "size=".toList <:+: part.front ++ "size"
  size : part.size.IsRun Char.isDigit
  back : ∀ head ∈ part.back.head?, isDecimalDigit head = false
  before : ∀ line ∈ part.before, isOther line = true
  groups : ∀ group ∈ part.groups, group.IsPrinted architecture

@[mk_iff]
structure Body.IsPrinted (architecture : Architecture) (body : Body) : Prop where
  mark : marksDex body.mark = true
  echo : ∀ line ∈ body.echo, line.IsPrinted
  gap : ∀ line ∈ body.gap, isBoundary line = false ∧ marksCode line = false
  first : ∀ line ∈ body.gap.head?, dexLine.accepts line = false
  native : ∀ part ∈ body.native, part.IsPrinted architecture

@[mk_iff]
structure Member.IsPrinted (architecture : Architecture) (member : Member) : Prop where
  margin : member.margin.IsRun isBlank
  number : member.number.IsRun isDecimalDigit
  gap : member.gap.IsRun isBlank
  declaration : isFlush member.declaration = true
  index : member.index.IsRun Char.isDigit
  before : ∀ line ∈ member.before, isBoundary line = false ∧ marksDex line = false
  body : ∀ body ∈ member.body, body.IsPrinted architecture

@[mk_iff]
structure Block.IsPrinted (architecture : Architecture) (block : Block) : Prop where
  number : block.number.IsRun isDecimalDigit
  path : block.path.IsRun (· != ';')
  offset : block.offset.IsRun isHexDigit
  typeIndex : block.typeIndex.IsRun isDecimalDigit
  status : block.status ≠ []
  before : ∀ line ∈ block.before, isBoundary line = false
  members : ∀ member ∈ block.members, member.IsPrinted architecture

@[mk_iff]
structure Printout.IsPrinted (printout : Printout) : Prop where
  preface : ∀ line ∈ printout.preface, startsWith (trim line) "INSTRUCTION SET:" = false
  mark : startsWith (trim printout.mark) "INSTRUCTION SET:" = true
  nameLine : trim printout.nameLine = printout.architecture.name
  before : ∀ line ∈ printout.before, classLine.accepts line = false
  blocks : ∀ block ∈ printout.blocks, block.IsPrinted printout.architecture
  lines : ∀ line ∈ printout.lines, line.IsLine

/-- Every number has at most thirty-two bits. -/
def Printout.FitsWords (printout : Printout) : Prop :=
  ∀ number ∈ printout.numbers, number < wordLimit

section decidable

variable {architecture : Architecture}

instance (invocation : Invocation) : Decidable invocation.IsPrinted :=
  decidable_of_iff' _ invocation.isPrinted_iff

instance : DecidablePred DexCode.IsPrinted
  | .invoke invocation => inferInstanceAs (Decidable invocation.IsPrinted)
  | .other code => inferInstanceAs
    (Decidable (isFlush code = true ∧ invocation.accepts code = false))

instance (line : EchoLine) : Decidable line.IsPrinted :=
  decidable_of_iff' _ line.isPrinted_iff

instance : DecidablePred (NativeCode.IsPrinted architecture)
  | .jump front sign offset target =>
    match architecture with
    | .arm64 => inferInstanceAs (Decidable (isFlush front = true ∧ isSign sign = true ∧
        offset.IsRun isHexDigit ∧ target.IsRun isHexDigit))
    | .x86_64 => inferInstanceAs (Decidable (isFlush front = true ∧ isSign sign = true ∧
        offset.IsRun isDecimalDigit ∧ target.IsRun isHexDigit ∧ target.length = 8))
  | .other code => inferInstanceAs
    (Decidable (isFlush code = true ∧ architecture.jumpCode.accepts code = false))

instance (line : CodeLine) : Decidable (line.IsPrinted architecture) :=
  decidable_of_iff' _ (line.isPrinted_iff architecture)

instance (map : StackMap) : Decidable map.IsPrinted :=
  decidable_of_iff' _ map.isPrinted_iff

instance (info : InlineInfo) : Decidable info.IsPrinted :=
  decidable_of_iff' _ info.isPrinted_iff

instance (site : CallSite) : Decidable site.IsPrinted :=
  decidable_of_iff' _ site.isPrinted_iff

instance (group : CodeGroup) : Decidable (group.IsPrinted architecture) :=
  decidable_of_iff' _ (group.isPrinted_iff architecture)

instance (part : NativePart) : Decidable (part.IsPrinted architecture) :=
  decidable_of_iff' _ (part.isPrinted_iff architecture)

instance (body : Body) : Decidable (body.IsPrinted architecture) :=
  decidable_of_iff' _ (body.isPrinted_iff architecture)

instance (member : Member) : Decidable (member.IsPrinted architecture) :=
  decidable_of_iff' _ (member.isPrinted_iff architecture)

instance (block : Block) : Decidable (block.IsPrinted architecture) :=
  decidable_of_iff' _ (block.isPrinted_iff architecture)

instance (printout : Printout) : Decidable printout.IsPrinted :=
  decidable_of_iff' _ printout.isPrinted_iff

instance (printout : Printout) : Decidable printout.FitsWords :=
  inferInstanceAs (Decidable (∀ number ∈ printout.numbers, number < wordLimit))

end decidable

end CompiledViews.Dump.Oatdump
