import CompiledViews.Proofs.Dump.Descriptor
import CompiledViews.Proofs.Dump.Dexdump.OwnLines
import CompiledViews.Proofs.Text.Exact
import CompiledViews.Proofs.Text.Lines
import CompiledViews.Proofs.Text.Numeral
import Mathlib.Tactic.MkIffOfInductiveProp

/-!
# What `dexdump` prints

A dump is made of blocks, one for each class, with the methods of the class that have code. Between
these there are other lines, none of which opens or ends a class or announces code. This file says
what the parts look like and what they stand for, and that the reader finds the parts of each line,
although it looks for single characters only: the first bar, the last period, the first colon.
-/

namespace CompiledViews.Dump.Dexdump

open Text Text.Form

/-- An instruction: what stands before the bar on its line, and its label and its code. -/
structure CodeItem where
  front : Text
  label : Text
  code : Text
deriving DecidableEq, Repr

/-- An entry of a line number table: blanks, and the address and the source line. -/
structure TableEntry where
  margin : Text
  address : Text
  sourceLine : Text
deriving DecidableEq, Repr

/-- A method with code: the announcement of the code and its size on it, the signature, the code,
lines up to the mark of the line number table, the entries, and other lines. -/
structure Member where
  announcement : Text
  padding : Nat
  units : Text
  front : Text
  name : Text
  type : Descriptor.MethodType
  code : List CodeItem
  gap : List Text
  mark : Text
  entries : List TableEntry
  after : List Text
deriving DecidableEq, Repr

/-- A class: lines before it, the line that opens it, its descriptor and the path on it, other
lines, the methods with code, and the line that ends it. -/
structure Block where
  preface : List Text
  opening : Text
  descriptor : Text
  padding : Nat
  path : Text
  before : List Text
  members : List Member
  last : Text
deriving DecidableEq, Repr

/-! ### The lines of the parts -/

/-- The part of an instruction's line that the reader looks at. -/
def CodeItem.body (item : CodeItem) : Text := item.label ++ (": " ++ item.code)

def CodeItem.line (item : CodeItem) : Text := item.front ++ '|' :: item.body

def TableEntry.line (entry : TableEntry) : Text :=
  entry.margin ++ ("0x" ++ (entry.address ++ (" line=" ++ entry.sourceLine)))

def Member.signature (member : Member) : Text :=
  member.front ++ '.' :: (member.name ++ ':' :: member.type.encode)

/-- The lines below the announcement. -/
def Member.below (member : Member) : List Text :=
  member.signature :: (member.code.map CodeItem.line ++
    (member.gap ++ (member.mark :: (member.entries.map TableEntry.line ++ member.after))))

def Member.lines (member : Member) : List Text := member.announcement :: member.below

def Block.lines (block : Block) : List Text :=
  block.preface ++ (block.opening :: block.descriptor ::
    (block.before ++ (block.members.flatMap Member.lines ++ [block.last])))

/-! ### What the parts stand for -/

def CodeItem.instruction (item : CodeItem) : Instruction :=
  Instruction.ofCode item.label.hexValue item.label item.code
    ((jumpCode.first? item.body).map hexValue)

/-- The address and the source line of an entry. -/
def TableEntry.pair (entry : TableEntry) : Nat × Nat :=
  (entry.address.hexValue, entry.sourceLine.decimalValue)

/-- The source line of the code at an address; of several entries for it the last one counts. -/
def Member.lineNumber? (member : Member) (address : Nat) : Option Nat :=
  (member.entries.map TableEntry.pair).reverse.lookup address

def Member.method (className : Text) (member : Member) : Method where
  header := member.type.result.shown ++ " " ++ className ++ "." ++ member.name ++ "(" ++
    join ", " (member.type.parameters.map Descriptor.JavaType.shown) ++ ")"
  index := none
  codeSize := some (member.units.decimalValue * 2)
  isa := .dex
  instructions := member.code.map fun item =>
    { item.instruction with lineNumber := member.lineNumber? item.instruction.address }
  references := .empty

/-- The name of the class in dotted notation. -/
def Block.name (block : Block) : Text := replaceChar '/' '.' block.path

/-- The class with its methods that have code, unless it has none or is built in. -/
def Block.classes (block : Block) : List Class :=
  if isBuiltIn block.name || block.members.isEmpty then []
  else [⟨"class " ++ block.name, block.members.map (Member.method block.name)⟩]

/-! ### Which parts are printed -/

/-- The line of an instruction does not begin with a space, and its label is the first thing behind
the bar. -/
@[mk_iff]
structure CodeItem.IsPrinted (item : CodeItem) : Prop where
  front : '|' ∉ item.front
  flush : startsWith item.line " " = false
  label : item.label.length = 4 ∧ ∀ digit ∈ item.label, isLowerHexDigit digit = true

@[mk_iff]
structure TableEntry.IsPrinted (entry : TableEntry) : Prop where
  margin : ∀ character ∈ entry.margin, isBlank character = true
  address : entry.address.IsLowerHex
  sourceLine : entry.sourceLine.IsDecimal

/-- The size in bytes has at most thirty-two bits, the separators of the signature do not occur in
the name of the method, and the lines between the code and the table begin with a space. -/
@[mk_iff]
structure Member.IsPrinted (member : Member) : Prop where
  announcement : trim member.announcement =
    "insns size" ++ (spaces member.padding ++ (": " ++ (member.units ++ " 16-bit code units")))
  units : member.units.IsDecimal ∧ member.units.decimalValue * 2 < wordLimit
  name : '.' ∉ member.name ∧ ':' ∉ member.name
  type : member.type.IsPlain
  code : ∀ item ∈ member.code, item.IsPrinted
  gap : ∀ line ∈ member.gap, startsWith line " " = true ∧ marksPositions line = false
  mark : startsWith member.mark " " = true ∧ marksPositions member.mark = true
  entries : ∀ entry ∈ member.entries, entry.IsPrinted
  after : ∀ line ∈ member.after.head?, positionLine.accepts line = false

/-- The path of the class stands between quotes, and no line but those that do so opens or ends a
class or announces code. -/
@[mk_iff]
structure Block.IsPrinted (block : Block) : Prop where
  preface : ∀ line ∈ block.preface, opensClass line = false
  opening : opensClass block.opening = true
  descriptor : trim block.descriptor =
    "Class descriptor" ++ (spaces block.padding ++ (": \x27L" ++ (block.path ++ ";\x27")))
  path : '\x27' ∉ block.path ∧ ';' ∉ block.path
  members : ∀ member ∈ block.members, member.IsPrinted
  others : ∀ line ∈ block.before ++ block.members.flatMap Member.below, isMarker line = false
  last : endsClass block.last = true
  lines : ∀ line ∈ block.lines, line.IsLine

instance (item : CodeItem) : Decidable item.IsPrinted :=
  decidable_of_iff' _ item.isPrinted_iff

instance (entry : TableEntry) : Decidable entry.IsPrinted :=
  decidable_of_iff' _ entry.isPrinted_iff

instance (member : Member) : Decidable member.IsPrinted :=
  decidable_of_iff' _ member.isPrinted_iff

instance (block : Block) : Decidable block.IsPrinted :=
  decidable_of_iff' _ block.isPrinted_iff

/-! ### Reading the lines -/

theorem TableEntry.IsPrinted.first?_positionLine {entry : TableEntry} (printed : entry.IsPrinted) :
    positionLine.first? entry.line = some (entry.address, entry.sourceLine) := by
  obtain ⟨margin, address, sourceLine⟩ := printed
  have readMargin : Prefers (span isBlank) entry.line entry.margin
      ("0x" ++ (entry.address ++ (" line=" ++ entry.sourceLine))) :=
    .span margin (by rintro _ ⟨⟩; decide)
  have readAddress : Prefers (span1 isLowerHexDigit)
      (entry.address ++ (" line=" ++ entry.sourceLine)) entry.address
      (" line=" ++ entry.sourceLine) :=
    .span1 address.nonempty address.digits (by rintro _ ⟨⟩; decide)
  have readLine : Prefers digits (entry.sourceLine ++ []) entry.sourceLine [] :=
    .span1 sourceLine.nonempty sourceLine.isDecimalDigit (by simp)
  rw [List.append_nil] at readLine
  have reading : Prefers positionLine entry.line (entry.address, entry.sourceLine) [] := by
    refine readMargin.bind ((Prefers.literal "0x" _).bind (readAddress.bind ?_))
    exact (Prefers.literal " line=" _).bind (readLine.bind (Prefers.atEnd.bind (.pure _ [])))
  exact reading.first?

/-- A jump leads to an address of four digits. -/
theorem isLowerHex_of_jumpCode {code address : Text} (found : jumpCode.first? code = some address) :
    address.IsLowerHex := by
  obtain ⟨⟨_, _⟩, atHead, rfl⟩ := Option.map_eq_some_iff.1 found
  obtain ⟨_, -, later⟩ := List.mem_flatMap.1 (List.mem_of_head? atHead)
  obtain ⟨_, -, later⟩ := List.mem_flatMap.1 later
  obtain ⟨_, -, later⟩ := List.mem_flatMap.1 later
  obtain ⟨⟨address, _⟩, readAddress, later⟩ := List.mem_flatMap.1 later
  obtain ⟨_, -, later⟩ := List.mem_flatMap.1 later
  obtain ⟨_, -, later⟩ := List.mem_flatMap.1 later
  obtain ⟨_, -, later⟩ := List.mem_flatMap.1 later
  obtain ⟨_, -, isDone⟩ := List.mem_flatMap.1 later
  obtain ⟨isLong, digits⟩ := of_mem_exactly readAddress
  obtain ⟨rfl, -⟩ := Prod.mk.inj (List.mem_singleton.1 isDone)
  exact isLowerHex_of_length digits isLong

theorem CodeItem.IsPrinted.readInstruction {item : CodeItem} (printed : item.IsPrinted) :
    readInstruction item.line = .ok item.instruction := by
  obtain ⟨front, -, isLong, digits⟩ := printed
  have isBody : splitOnce "|" item.line = some (item.front, item.body) := splitOnce_append front _
  have noColon : ':' ∉ item.label := by
    intro member
    have isDigit := digits ':' member
    revert isDigit
    decide
  have isSplit : splitOnce ": " item.body = some (item.label, item.code) :=
    splitOnce_append noColon _
  have address : number hexadecimal? .thisLine item.label = .ok item.label.hexValue :=
    number_eq_ok_iff.2 (isLowerHex_of_length digits isLong).isHex.hexadecimal?
  rw [Dexdump.readInstruction, isBody]
  simp only [Option.map_some, Option.getD_some, isSplit, address]
  rw [instruction]
  rcases jumps : jumpCode.first? item.body with _ | target
  · rfl
  · have isTarget : number hexadecimal? .thisLine target = .ok target.hexValue :=
      number_eq_ok_iff.2 (isLowerHex_of_jumpCode jumps).isHex.hexadecimal?
    simp only [isTarget]
    rfl

namespace Member

variable {member : Member}

theorem IsPrinted.announcesCode (printed : member.IsPrinted) :
    announcesCode member.announcement = true := by
  rw [Dexdump.announcesCode, printed.announcement]
  exact List.isPrefixOf_iff_prefix.2 (List.prefix_append ..)

theorem IsPrinted.codeSize (printed : member.IsPrinted) :
    codeSize (trim member.announcement) = .ok (member.units.decimalValue * 2) := by
  obtain ⟨isDecimal, small⟩ := printed.units
  have noColon : ':' ∉ "insns size" ++ spaces member.padding := by
    simp [spaces]
  have noBlank : ∀ digit ∈ member.units, isBlank digit = false := by
    intro digit inUnits
    by_contra blank
    have noDigit := isDecimalDigit_of_isBlank (by simpa using blank)
    simp [isDecimal.isDecimalDigit digit inUnits] at noDigit
  have isSplit : splitOnce ":" (trim member.announcement) = some
      ("insns size" ++ spaces member.padding, " " ++ (member.units ++ " 16-bit code units")) := by
    rw [printed.announcement, ← List.append_assoc]
    exact splitOnce_append noColon _
  have isHead : (words (" " ++ (member.units ++ " 16-bit code units"))).head? = some member.units :=
    head?_words isDecimal.nonempty noBlank (by decide) _
  have count : number decimal? .thisLine member.units = .ok member.units.decimalValue :=
    number_eq_ok_iff.2 isDecimal.decimal?
  rw [Dexdump.codeSize, isSplit]
  simp only [Option.bind_some, isHead, count]
  exact if_pos small

theorem IsPrinted.stepSignature (printed : member.IsPrinted) (parent : OpenClass) (size : Nat) :
    stepSignature parent size member.signature =
      .ok (.inCode parent ⟨size, member.name, member.type.encode, []⟩) := by
  obtain ⟨noPeriod, noColon⟩ := printed.name
  have absent : '.' ∉ member.name ++ ':' :: member.type.encode := by
    simp [noPeriod, printed.type.not_mem_encode]
  have isSplit : splitOnce ":" (member.name ++ ':' :: member.type.encode) =
      some (member.name, member.type.encode) := splitOnce_append noColon _
  rw [Dexdump.stepSignature, signature, afterLast_append absent, isSplit]

end Member

/-- The path on a descriptor line is found between its quotes. -/
theorem Block.IsPrinted.className? {block : Block} (printed : block.IsPrinted) :
    className? block.descriptor = some block.name := by
  obtain ⟨noQuote, noEnd⟩ := printed.path
  obtain ⟨left, right, isLine, blankLeft, -⟩ := exists_append_trim block.descriptor
  have starts : startsWith (trim block.descriptor) "Class descriptor" = true := by
    rw [printed.descriptor]
    exact List.isPrefixOf_iff_prefix.2 (List.prefix_append ..)
  let front : Text := left ++ ("Class descriptor" ++ (spaces block.padding ++ ": "))
  have noQuoteLeft : '\x27' ∉ front := by
    have absent : '\x27' ∉ left := by
      intro member
      have blank := blankLeft _ member
      revert blank
      decide
    simp [front, absent, spaces]
  have noQuoteInside : '\x27' ∉ 'L' :: (block.path ++ [';']) := by simp [noQuote]
  have pieces : splitAll '\x27' block.descriptor =
      front :: ('L' :: (block.path ++ [';'])) :: splitAll '\x27' right := by
    rw [isLine, printed.descriptor, ← splitAll_append noQuoteInside, ← splitAll_append noQuoteLeft]
    simp [front]
  have afterLetter : after? "L" ('L' :: (block.path ++ [';'])) = some (block.path ++ [';']) :=
    after?_eq_some_iff.2 rfl
  rw [Dexdump.className?, if_pos starts, pieces]
  simp only [afterLetter, Option.getD_some, dropRightWhile_append noEnd]
  rfl

end CompiledViews.Dump.Dexdump
