import CompiledViews.Proofs.Dump.Javap.LineTable
import CompiledViews.Proofs.Text.Exact
import CompiledViews.Proofs.Text.Leading
import CompiledViews.Proofs.Text.Lines
import CompiledViews.Proofs.Text.Numeral
import Mathlib.Tactic.MkIffOfInductiveProp

/-!
# What `javap` prints

A dump is made of blocks, one for each class, with the members of the class. A member may have a
body: its code, lines about attributes of the code, among them the line number table, and lines that
follow the table. This file says what the parts look like and what they stand for, and that each
line of them has the form by which the reader knows it and no other.
-/

namespace CompiledViews.Dump.Javap

open Text Text.Form

/-- The table of a switch: its cases, and the line that closes it. -/
structure SwitchTable where
  cases : List Text
  last : Text
deriving DecidableEq, Repr

/-- An instruction: its line, the address and the code on it, and the table below it, if any. -/
structure CodeItem where
  line : Text
  address : Text
  code : Text
  table : Option SwitchTable
deriving DecidableEq, Repr

/-- An entry of a line number table: its line, and the source line and the address on it. -/
structure TableEntry where
  line : Text
  sourceLine : Text
  address : Text
deriving DecidableEq, Repr

/-- A line number table: its mark, its entries, and the lines about other attributes below it. -/
structure SourceTable where
  mark : Text
  entries : List TableEntry
  rest : List Text
deriving DecidableEq, Repr

/-- The body of a method: the mark of the code, the code, lines about attributes, and the line
number table with what follows it, if there is one. -/
structure Body where
  mark : Text
  code : List CodeItem
  gap : List Text
  table : Option SourceTable
deriving DecidableEq, Repr

/-- A member of a class: its declaration, the exceptions that it throws, and its body. -/
structure Member where
  header : Text
  thrown : Option Text
  body : Option Body
deriving DecidableEq, Repr

/-- A class: the line that opens it, the header and the name on that line, and its members. -/
structure Block where
  opening : Text
  header : Text
  name : Text
  members : List Member
deriving DecidableEq, Repr

/-! ### The lines of the parts -/

def SwitchTable.lines (table : SwitchTable) : List Text := table.cases ++ [table.last]

def CodeItem.lines (item : CodeItem) : List Text :=
  item.line :: item.table.elim [] SwitchTable.lines

def SourceTable.lines (table : SourceTable) : List Text :=
  table.mark :: (table.entries.map TableEntry.line ++ table.rest)

def Body.lines (body : Body) : List Text :=
  body.mark :: (body.code.flatMap CodeItem.lines ++
    (body.gap ++ body.table.elim [] SourceTable.lines))

/-- How a declaration goes on after its header: with the exceptions that it throws, if any. -/
def throwing (thrown : Option Text) : Text :=
  thrown.elim [] fun names => " throws " ++ names

def Member.declaration (member : Member) : Text :=
  "  " ++ (member.header ++ (throwing member.thrown ++ ";"))

def Member.lines (member : Member) : List Text :=
  member.declaration :: member.body.elim [] Body.lines

def Block.lines (block : Block) : List Text :=
  block.opening :: (block.members.flatMap Member.lines ++ [closing])

/-! ### What the parts stand for -/

/-- The instruction without the table below it. -/
def CodeItem.plain (item : CodeItem) : Instruction :=
  Instruction.ofCode item.address.decimalValue item.address item.code
    ((jumpCode.first? item.code).map decimalValue)

def CodeItem.instruction (item : CodeItem) : Instruction :=
  match item.table with
  | none => item.plain
  | some table => { item.plain with operands := switchOperands (table.cases.map trim) }

/-- The address and the source line of an entry. -/
def TableEntry.pair (entry : TableEntry) : Nat × Nat :=
  (entry.address.decimalValue, entry.sourceLine.decimalValue)

/-- The source line of the code at an address; of several entries for it the last one counts. -/
def Body.lineNumber? (body : Body) (address : Nat) : Option Nat :=
  body.table.bind fun table => (table.entries.map TableEntry.pair).reverse.lookup address

def Body.method (body : Body) (header : Text) : Method where
  header := header
  index := none
  codeSize := none
  isa := .byteCode
  instructions := body.code.map fun item =>
    { item.instruction with lineNumber := body.lineNumber? item.instruction.address }
  references := .empty

/-- The method that a member with a body is. -/
def Member.method? (member : Member) : Option Method :=
  member.body.map fun body => body.method member.header

/-- The class with its methods that have bodies, unless it is built in. -/
def Block.classes (block : Block) : List Class :=
  if isBuiltIn block.name then [] else [⟨block.header, block.members.filterMap Member.method?⟩]

/-! ### Which parts are printed -/

/-- A switch table ends at the first line that is a closing brace. -/
@[mk_iff]
structure SwitchTable.IsPrinted (table : SwitchTable) : Prop where
  goesOn : ∀ line ∈ table.cases, trim line ≠ closing
  closes : trim table.last = closing

/-- An instruction is printed as its address and its code, without blanks around it, and those that
are switches have tables. -/
@[mk_iff]
structure CodeItem.IsPrinted (item : CodeItem) : Prop where
  line : trim item.line = item.address ++ (": " ++ item.code)
  address : item.address.IsDecimal
  code : trim item.code = item.code
  target : ∀ target ∈ jumpCode.first? item.code, target.IsDecimal
  switch : isSwitch item.plain = item.table.isSome
  table : ∀ table ∈ item.table, table.IsPrinted

@[mk_iff]
structure TableEntry.IsPrinted (entry : TableEntry) : Prop where
  line : trim entry.line = "line " ++ (entry.sourceLine ++ (": " ++ entry.address))
  sourceLine : entry.sourceLine.IsDecimal
  address : entry.address.IsDecimal

/-- No line below a table ends the class or declares a member, and the first one is no entry. -/
@[mk_iff]
structure SourceTable.IsPrinted (table : SourceTable) : Prop where
  mark : trim table.mark = "LineNumberTable:"
  entries : ∀ entry ∈ table.entries, entry.IsPrinted
  stays : ∀ line ∈ table.rest, StaysInMember line
  first : ∀ line ∈ table.rest.head?, lineEntry.accepts (trim line) = false

/-- No line between the code and the table ends the class, declares a member or is the mark of a
table, and the first one is no instruction. -/
@[mk_iff]
structure Body.IsPrinted (body : Body) : Prop where
  mark : trim body.mark = "Code:"
  code : ∀ item ∈ body.code, item.IsPrinted
  stays : ∀ line ∈ body.gap, StaysInMember line ∧ trim line ≠ "LineNumberTable:"
  first : ∀ line ∈ body.gap.head?, instructionLine.accepts (trim line) = false
  table : ∀ table ∈ body.table, table.IsPrinted

/-- A declaration ends in a closing parenthesis, and no other one follows. -/
@[mk_iff]
structure Member.IsPrinted (member : Member) : Prop where
  header : member.header.getLast? = some ')'
  thrown : ∀ names ∈ member.thrown, names ≠ [] ∧ ')' ∉ names
  body : ∀ body ∈ member.body, body.IsPrinted

@[mk_iff]
structure Block.IsPrinted (block : Block) : Prop where
  opening : classLine.first? block.opening = some (block.header, block.name)
  members : ∀ member ∈ block.members, member.IsPrinted
  lines : ∀ line ∈ block.lines, line.IsLine

instance (line : Text) : Decidable (StaysInMember line) :=
  inferInstanceAs (Decidable (line ≠ closing ∧ memberLine.accepts line = false))

instance (table : SwitchTable) : Decidable table.IsPrinted :=
  decidable_of_iff' _ table.isPrinted_iff

instance (item : CodeItem) : Decidable item.IsPrinted :=
  decidable_of_iff' _ item.isPrinted_iff

instance (entry : TableEntry) : Decidable entry.IsPrinted :=
  decidable_of_iff' _ entry.isPrinted_iff

instance (table : SourceTable) : Decidable table.IsPrinted :=
  decidable_of_iff' _ table.isPrinted_iff

instance (body : Body) : Decidable body.IsPrinted :=
  decidable_of_iff' _ body.isPrinted_iff

instance (member : Member) : Decidable member.IsPrinted :=
  decidable_of_iff' _ member.isPrinted_iff

instance (block : Block) : Decidable block.IsPrinted :=
  decidable_of_iff' _ block.isPrinted_iff

/-! ### Reading the lines -/

section reading

variable {address code : Text}

theorem prefers_instructionLine (isDecimal : address.IsDecimal) (single : code.SingleLine)
    (noSpace : ∀ first ∈ code.head?, (first == ' ') = false) :
    Prefers instructionLine (address ++ (": " ++ code)) (address, code) [] := by
  have readAddress : Prefers digits (address ++ (": " ++ code)) address (": " ++ code) :=
    .span1 isDecimal.nonempty isDecimal.isDecimalDigit (by rintro _ ⟨⟩; decide)
  have readSpace : Prefers (span1 (· == ' ')) (" " ++ code) " " code :=
    .span1 (by decide) (by decide) noSpace
  refine readAddress.bind ((Prefers.literal ":" _).bind (readSpace.bind ?_))
  exact (Prefers.anything single).bind (Prefers.atEnd.bind (.pure _ []))

theorem prefers_lineEntry {sourceLine : Text} (isLine : sourceLine.IsDecimal)
    (isDecimal : address.IsDecimal) :
    Prefers lineEntry ("line " ++ (sourceLine ++ (": " ++ address))) (sourceLine, address) [] := by
  have readLine : Prefers digits (sourceLine ++ (": " ++ address)) sourceLine (": " ++ address) :=
    .span1 isLine.nonempty isLine.isDecimalDigit (by rintro _ ⟨⟩; decide)
  have readAddress : Prefers digits (address ++ []) address [] :=
    .span1 isDecimal.nonempty isDecimal.isDecimalDigit (by simp)
  rw [List.append_nil] at readAddress
  refine (Prefers.literal "line " _).bind (readLine.bind ((Prefers.literal ": " address).bind ?_))
  exact readAddress.bind (Prefers.atEnd.bind (.pure _ []))

/-- An entry of a line number table ends in a digit. -/
theorem getLast?_of_lineEntry {text : Text} (isEntry : lineEntry.accepts text = true) :
    ∃ digit, text.getLast? = some digit ∧ isDecimalDigit digit = true := by
  obtain ⟨_, found⟩ := Option.isSome_iff_exists.1 isEntry
  obtain ⟨⟨_, _⟩, atHead, _⟩ := Option.map_eq_some_iff.1 found
  obtain ⟨⟨_, afterWord⟩, word, later⟩ := List.mem_flatMap.1 (List.mem_of_head? atHead)
  obtain ⟨⟨sourceLine, afterLine⟩, readLine, later⟩ := List.mem_flatMap.1 later
  obtain ⟨⟨_, afterMark⟩, mark, later⟩ := List.mem_flatMap.1 later
  obtain ⟨⟨address, rest⟩, readAddress, later⟩ := List.mem_flatMap.1 later
  obtain ⟨⟨_, _⟩, isEnd, _⟩ := List.mem_flatMap.1 later
  obtain rfl := eq_nil_of_mem_atEnd isEnd
  obtain ⟨isTaken, -, nonempty⟩ := eq_of_mem_span1 readAddress
  obtain ⟨front, digit, isAddress⟩ := List.eq_nil_or_concat' address |>.resolve_left nonempty
  have isDigit : isDecimalDigit digit = true := by
    have inAddress : digit ∈ afterMark.takeWhile isDecimalDigit := by simp [← isTaken, isAddress]
    exact List.mem_takeWhile_imp inAddress
  refine ⟨digit, List.getLast?_eq_some_iff.2 ⟨"line " ++ (sourceLine ++ (": " ++ front)), ?_⟩,
    isDigit⟩
  simp [mem_literal word, mem_span1 readLine, mem_literal mark, mem_span1 readAddress, isAddress]

/-- A declaration ends after its parameter list in a semicolon, with the exceptions before it. -/
theorem prefers_declarationEnd {thrown : Option Text}
    (listed : ∀ names ∈ thrown, names ≠ [] ∧ names.SingleLine) :
    Prefers declarationEnd (throwing thrown ++ ";") () [] := by
  rcases thrown with _ | names
  · exact (Prefers.either_left _ (.literal_self ";")).bind .atEnd
  · obtain ⟨nonempty, single⟩ := listed _ rfl
    have readNames : Prefers (somethingUpTo ";") (names ++ ";") names [] :=
      .somethingUpTo nonempty single (by simp)
    rw [throwing, Option.elim_some, List.append_assoc]
    have noEnd : literal [';'] (" throws " ++ (names ++ ";")) = [] := literal_eq_nil (by simp)
    have readThrown : Prefers
        (literal " throws " >>= fun _ => somethingUpTo ";" >>= fun _ => pure ())
        (" throws " ++ (names ++ ";")) () [] :=
      (Prefers.literal " throws " (names ++ ";")).bind (readNames.bind (.pure () []))
    exact (Prefers.either_right noEnd readThrown).bind .atEnd

theorem Member.IsPrinted.prefers_memberLine {member : Member} (printed : member.IsPrinted)
    (single : member.declaration.SingleLine) :
    Prefers memberLine member.declaration member.header [] := by
  obtain ⟨front, isHeader⟩ := List.getLast?_eq_some_iff.1 printed.header
  rw [declaration] at single ⊢
  simp only [SingleLine.append_iff] at single
  obtain ⟨-, singleHeader, singleThrown, -⟩ := single
  have listed : ∀ names ∈ member.thrown, names ≠ [] ∧ names.SingleLine := by
    rintro names isThrown
    rw [isThrown, throwing, Option.elim_some, SingleLine.append_iff] at singleThrown
    exact ⟨(printed.thrown names isThrown).1, singleThrown.2⟩
  have absent : ')' ∉ throwing member.thrown ++ ";" := by
    rcases isThrown : member.thrown with _ | names
    · decide
    · have inNames := (printed.thrown names isThrown).2
      simpa [throwing] using inNames
  have readHeader : Prefers (anythingUpTo ")") (member.header ++ (throwing member.thrown ++ ";"))
      front (throwing member.thrown ++ ";") := by
    rw [isHeader, SingleLine.append_iff] at singleHeader
    rw [isHeader, List.append_assoc]
    exact .upTo (anyInLine_of_mem singleHeader.1) fun again =>
      absent (again.subset (List.mem_singleton.2 rfl))
  refine (Prefers.literal "  " _).bind (readHeader.covering.bind ?_)
  exact (prefers_declarationEnd listed).bind (.pure _ [])

theorem mem_declarationEnd {text rest : Text} (member : ((), rest) ∈ declarationEnd text) :
    ∃ front, text = front ++ [';'] := by
  obtain ⟨⟨_, left⟩, read, isEnd⟩ := List.mem_flatMap.1 member
  obtain rfl := eq_nil_of_mem_atEnd isEnd
  rcases List.mem_append.1 read with atOnce | throwing
  · exact ⟨[], by simpa using mem_literal atOnce⟩
  · obtain ⟨⟨_, afterWord⟩, word, names⟩ := List.mem_flatMap.1 throwing
    obtain ⟨⟨taken, afterNames⟩, isListed, isDone⟩ := List.mem_flatMap.1 names
    obtain rfl : afterNames = [] := by simpa [pure, nothing, eq_comm] using isDone
    exact ⟨" throws " ++ taken, by simpa [mem_somethingUpTo isListed] using mem_literal word⟩

/-- A line that declares a member ends in a semicolon. -/
theorem getLast?_of_memberLine {line : Text} (declares : memberLine.accepts line = true) :
    line.getLast? = some ';' := by
  obtain ⟨header, found⟩ := Option.isSome_iff_exists.1 declares
  obtain ⟨⟨_, _⟩, atHead, _⟩ := Option.map_eq_some_iff.1 found
  obtain ⟨⟨_, afterMargin⟩, margin, later⟩ := List.mem_flatMap.1 (List.mem_of_head? atHead)
  obtain ⟨⟨_, afterHeader⟩, covered, later⟩ := List.mem_flatMap.1 later
  obtain ⟨⟨_, rest⟩, isEnd, _⟩ := List.mem_flatMap.1 later
  obtain ⟨⟨taken, left⟩, upTo, equal⟩ := List.mem_map.1 covered
  obtain ⟨-, rfl⟩ := Prod.mk.inj equal
  obtain ⟨front, rfl⟩ := mem_declarationEnd isEnd
  refine List.getLast?_eq_some_iff.2 ⟨"  " ++ (taken ++ (")" ++ front)), ?_⟩
  simp [mem_literal margin, mem_upTo upTo]

end reading

end CompiledViews.Dump.Javap
