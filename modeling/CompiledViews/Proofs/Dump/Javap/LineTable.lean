import CompiledViews.Dump.Javap
import CompiledViews.Proofs.Dump.Machine
import CompiledViews.Proofs.NatMap
import Mathlib.Data.List.TakeWhile

/-!
# Where a method of a `javap` dump gets its source lines from

The source lines of a method come from the first line number table below its code, and no member
with a parameter list is declared between the two, nor does the class end there. A static
initialiser is declared without parameters, though, and does not end the search: a method that has
no table takes the one of a static initialiser that follows it.
-/

namespace CompiledViews.Dump.Javap

open Text Text.Form

/-- The address and the source line that an entry of a line number table tells. -/
def entryOf (line : Text) : Option (Nat × Nat) :=
  match lineEntry.first? (trim line) with
  | some (sourceLine, address) => (decimal? address).bind fun key =>
      (decimal? sourceLine).map fun value => (key, value)
  | none => none

/-- Lines of code: instructions, each switch with the table on the lines below it. -/
inductive CodeLines : List Text → Prop where
  | none : CodeLines []
  | instruction {earlier : List Text} {line : Text} (code : CodeLines earlier)
      (reads : instructionLine.accepts (trim line) = true) : CodeLines (earlier ++ [line])
  | switch {earlier cases : List Text} {line last : Text} (code : CodeLines earlier)
      (reads : instructionLine.accepts (trim line) = true)
      (goesOn : ∀ switchCase ∈ cases, trim switchCase ≠ closing) (closes : trim last = closing) :
      CodeLines (earlier ++ line :: cases ++ [last])

/-- A line on which no class ends and no member with a parameter list is declared. -/
def StaysInMember (line : Text) : Prop := line ≠ closing ∧ memberLine.accepts line = false

/-- The lines of a method: its declaration, the mark of its code, the code, a gap, and the entries
of a line number table, of which there may be none. -/
structure Excerpt where
  declaration : Text
  mark : Text
  code : List Text
  gap : List Text
  table : List Text

namespace Excerpt

def lines (part : Excerpt) : List Text :=
  part.declaration :: part.mark :: (part.code ++ part.gap ++ part.table)

/-- An excerpt begins with a method of the given header and its code, after which nothing of another
member follows up to the entries, nor another table. -/
structure Begins (part : Excerpt) (header : Text) : Prop where
  declares : memberLine.first? part.declaration = some header
  marks : trim part.mark = "Code:"
  code : CodeLines part.code
  stays : ∀ line ∈ part.gap, StaysInMember line
  first : ∀ line ∈ part.gap.dropLast, trim line ≠ "LineNumberTable:"

/-- The entries of an excerpt are those below the mark of a line number table, and all that the
source lines of its instructions come from. -/
structure Numbers (part : Excerpt) (lineNumber : Nat → Option Nat) : Prop where
  entries : ∀ line ∈ part.table, lineEntry.accepts (trim line) = true
  marked : part.table ≠ [] → part.gap.getLast?.map trim = some ("LineNumberTable:" : Text)
  told : ∀ address sourceLine, lineNumber address = some sourceLine →
    ∃ line ∈ part.table, entryOf line = some (address, sourceLine)

end Excerpt

/-- Lines hold a method with its code, which takes its source lines from the table that follows. -/
def Holds (lines : List Text) (method : Method) : Prop :=
  ∃ (before after : List Text) (part : Excerpt) (table : NatMap Nat),
    lines = before ++ part.lines ++ after ∧ part.Begins method.header ∧
      part.Numbers table.get? ∧ ∀ instruction ∈ method.instructions,
        instruction.lineNumber = table.get? instruction.address

theorem Holds.append {lines : List Text} {method : Method} (holds : Holds lines method)
    (later : List Text) : Holds (lines ++ later) method := by
  rcases holds with ⟨before, after, part, table, rfl, begins, numbers, isTold⟩
  exact ⟨before, after ++ later, part, table, by simp, begins, numbers, isTold⟩

/-- Lines hold all of some methods. -/
def HoldAll (lines : List Text) (methods : List Method) : Prop :=
  ∀ method ∈ methods, Holds lines method

theorem HoldAll.append {lines : List Text} {methods : List Method} (holds : HoldAll lines methods)
    (later : List Text) : HoldAll (lines ++ later) methods :=
  fun method member => (holds method member).append later

/-- The last lines are an excerpt so far. -/
def EndsIn (lines : List Text) (part : Excerpt) : Prop := ∃ before, lines = before ++ part.lines

theorem EndsIn.append {lines later : List Text} {part next : Excerpt} (endsIn : EndsIn lines part)
    (grows : part.lines ++ later = next.lines) : EndsIn (lines ++ later) next := by
  rcases endsIn with ⟨before, rfl⟩
  exact ⟨before, by rw [List.append_assoc, grows]⟩

/-- What the reader has read so far is held by the lines so far, and what it is in the middle of
are the last ones of them. -/
def Scope.Recounts (lines : List Text) : Scope → Prop
  | betweenClasses => True
  | inClass parent => HoldAll lines parent.methods
  | afterHeader parent header => HoldAll lines parent.methods ∧
    ∃ before declaration, lines = before ++ [declaration] ∧
      memberLine.first? declaration = some header
  | inCode parent method => HoldAll lines parent.methods ∧
    ∃ part : Excerpt, EndsIn lines part ∧ part.Begins method.header ∧ part.gap = [] ∧
      part.table = []
  | inSwitch parent method _ _ => HoldAll lines parent.methods ∧
    ∃ (part : Excerpt) (line : Text) (cases : List Text),
      EndsIn lines { part with code := part.code ++ line :: cases } ∧ part.Begins method.header ∧
      part.gap = [] ∧ part.table = [] ∧ instructionLine.accepts (trim line) = true ∧
      ∀ switchCase ∈ cases, trim switchCase ≠ closing
  | beforeTable parent method => HoldAll lines parent.methods ∧
    ∃ part : Excerpt, EndsIn lines part ∧ part.Begins method.header ∧
      (∀ other ∈ part.gap, trim other ≠ "LineNumberTable:") ∧ part.table = []
  | inTable parent method table => HoldAll lines parent.methods ∧
    ∃ part : Excerpt, EndsIn lines part ∧ part.Begins method.header ∧
      part.gap.getLast?.map trim = some ("LineNumberTable:" : Text) ∧ part.Numbers table.get?

section step

variable {lines : List Text} {line : Text} {parent : OpenClass} {method : OpenMethod}

/-- A method that is complete is held by the lines if an excerpt of them has its code and its
table. -/
theorem holds_add (holds : HoldAll lines parent.methods) {part : Excerpt}
    (endsIn : EndsIn lines part) (begins : part.Begins method.header) {table : NatMap Nat}
    (numbers : part.Numbers table.get?) :
    HoldAll lines (parent.add method table).methods := by
  intro other member
  rcases List.mem_append.1 member with earlier | isNew
  · exact holds other earlier
  · rcases List.mem_singleton.1 isNew with rfl
    rcases endsIn with ⟨before, rfl⟩
    refine ⟨before, [], part, table, by simp, begins, numbers, fun instruction isNumbered => ?_⟩
    rcases List.mem_map.1 isNumbered with ⟨bare, _, rfl⟩
    rfl

theorem Excerpt.numbers_empty {part : Excerpt} (noTable : part.table = []) :
    part.Numbers (NatMap.empty : NatMap Nat).get? where
  entries := by simp [noTable]
  marked some_ := absurd noTable some_
  told address sourceLine isTold := by simp at isTold

theorem complete_holds (holds : HoldAll lines parent.methods) :
    ∀ cls ∈ parent.complete, HoldAll lines cls.methods := by
  unfold OpenClass.complete
  split
  · simp
  · simpa [HoldAll] using holds

theorem recounts_stepInClass (holds : HoldAll lines parent.methods)
    (line : Text) :
    (∀ cls ∈ (stepInClass parent line).1, HoldAll (lines ++ [line]) cls.methods) ∧
      (stepInClass parent line).2.Recounts (lines ++ [line]) := by
  have holds_after := holds.append [line]
  unfold stepInClass
  split
  · exact ⟨complete_holds holds_after, trivial⟩
  · split
    case h_1 header found => exact ⟨by simp, holds_after, lines, line, rfl, found⟩
    case h_2 _ => exact ⟨by simp, holds_after⟩

theorem recounts_stepBeforeTable (holds : HoldAll lines parent.methods)
    {part : Excerpt} (endsIn : EndsIn lines part) (begins : part.Begins method.header)
    (noMark : ∀ other ∈ part.gap, trim other ≠ "LineNumberTable:") (noTable : part.table = [])
    (line : Text) :
    (∀ cls ∈ (stepBeforeTable parent method line).1, HoldAll (lines ++ [line]) cls.methods) ∧
      (stepBeforeTable parent method line).2.Recounts (lines ++ [line]) := by
  unfold stepBeforeTable
  split
  case isTrue _ =>
    have numbers := Excerpt.numbers_empty noTable
    exact recounts_stepInClass (holds_add holds endsIn begins numbers) line
  case isFalse goesOn =>
    have holds_after := holds.append [line]
    have stays : StaysInMember line := by simpa [StaysInMember] using goesOn
    let next : Excerpt := { part with gap := part.gap ++ [line] }
    have endsIn_next : EndsIn (lines ++ [line]) next :=
      endsIn.append (by simp [next, Excerpt.lines, noTable])
    have begins_next : next.Begins method.header := by
      refine ⟨begins.declares, begins.marks, begins.code, ?_, by simpa [next] using noMark⟩
      intro other member
      rcases List.mem_append.1 member with earlier | isNew
      · exact begins.stays other earlier
      · exact List.mem_singleton.1 isNew ▸ stays
    split
    case isTrue isMark =>
      have marked : next.gap.getLast?.map trim = some ("LineNumberTable:" : Text) := by
        simp [next, isMark]
      refine ⟨by simp, holds_after, next, endsIn_next, begins_next, marked, ?_⟩
      exact Excerpt.numbers_empty noTable
    case isFalse noMarkHere =>
      refine ⟨by simp, holds_after, next, endsIn_next, begins_next, fun other member => ?_, noTable⟩
      rcases List.mem_append.1 member with earlier | isNew
      · exact noMark other earlier
      · exact List.mem_singleton.1 isNew ▸ noMarkHere

/-- An entry that is read tells what it adds to the table. -/
theorem Excerpt.Numbers.insert {part : Excerpt} {table : NatMap Nat}
    (numbers : part.Numbers table.get?)
    (marked : part.gap.getLast?.map trim = some ("LineNumberTable:" : Text))
    {address sourceLine : Nat} (isEntry : lineEntry.accepts (trim line) = true)
    (tells : entryOf line = some (address, sourceLine)) :
    Numbers { part with table := part.table ++ [line] } (table.insert address sourceLine).get? where
  entries other member := by
    rcases List.mem_append.1 member with earlier | isNew
    · exact numbers.entries other earlier
    · exact List.mem_singleton.1 isNew ▸ isEntry
  marked _ := marked
  told key value isTold := by
    rw [NatMap.get?_insert] at isTold
    split at isTold
    case isTrue same =>
      rcases Option.some.inj isTold with rfl
      exact ⟨line, by simp, same ▸ tells⟩
    case isFalse _ =>
      rcases numbers.told key value isTold with ⟨other, member, tellsOther⟩
      exact ⟨other, List.mem_append_left _ member, tellsOther⟩

/-- A line takes a scope that recounts the lines before it to one that recounts it as well. -/
theorem recounts_step {scope next : Scope} {completed : List Class}
    (recounts : scope.Recounts lines) (stepped : step scope line = .ok (completed, next)) :
    (∀ cls ∈ completed, HoldAll (lines ++ [line]) cls.methods) ∧
      next.Recounts (lines ++ [line]) := by
  cases scope with
  | betweenClasses =>
      rw [step] at stepped
      split at stepped
      all_goals
        rcases Prod.mk.inj (Except.ok.inj stepped) with ⟨rfl, rfl⟩
        simp [Scope.Recounts, HoldAll]
  | inClass parent =>
      rcases Prod.mk.inj (Except.ok.inj stepped) with ⟨rfl, rfl⟩
      exact recounts_stepInClass recounts line
  | afterHeader parent header =>
      rcases recounts with ⟨holds, before, declaration, rfl, declares⟩
      rw [step] at stepped
      split at stepped
      case isTrue marks =>
        rcases Prod.mk.inj (Except.ok.inj stepped) with ⟨rfl, rfl⟩
        refine ⟨by simp, holds.append [line], ⟨declaration, line, [], [], []⟩, ?_, ?_, rfl, rfl⟩
        · exact ⟨before, by simp [Excerpt.lines]⟩
        · exact ⟨declares, marks, .none, by simp, by simp⟩
      case isFalse _ =>
        rcases Prod.mk.inj (Except.ok.inj stepped) with ⟨rfl, rfl⟩
        exact recounts_stepInClass holds line
  | inCode parent method =>
      rcases recounts with ⟨holds, part, endsIn, begins, noGap, noTable⟩
      rw [step] at stepped
      split at stepped
      case h_1 _ =>
        rcases Prod.mk.inj (Except.ok.inj stepped) with ⟨rfl, rfl⟩
        exact recounts_stepBeforeTable holds endsIn begins (by simp [noGap]) noTable line
      case h_2 address code found =>
        rcases bind_eq_ok_iff.1 stepped with ⟨instruction, _, stepped⟩
        have reads : instructionLine.accepts (trim line) = true := by simp [accepts, found]
        have grown : EndsIn (lines ++ [line]) { part with code := part.code ++ [line] } :=
          endsIn.append (by simp [Excerpt.lines, noGap, noTable])
        split at stepped
        · rcases Prod.mk.inj (Except.ok.inj stepped) with ⟨rfl, rfl⟩
          exact ⟨by simp, holds.append [line], part, line, [], grown, begins, noGap, noTable,
            reads, by simp⟩
        · rcases Prod.mk.inj (Except.ok.inj stepped) with ⟨rfl, rfl⟩
          exact ⟨by simp, holds.append [line], _, grown,
            ⟨begins.declares, begins.marks, .instruction begins.code reads, begins.stays,
              begins.first⟩, noGap, noTable⟩
  | inSwitch parent method switch cases =>
      rcases recounts with ⟨holds, part, first, tableLines, endsIn, begins, noGap, noTable, reads,
        goesOn⟩
      have grown : EndsIn (lines ++ [line])
          { part with code := part.code ++ first :: tableLines ++ [line] } :=
        endsIn.append (by simp [Excerpt.lines, noGap, noTable])
      rw [step] at stepped
      split at stepped
      case isTrue closes =>
        rcases Prod.mk.inj (Except.ok.inj stepped) with ⟨rfl, rfl⟩
        exact ⟨by simp, holds.append [line], _, grown,
          ⟨begins.declares, begins.marks, .switch begins.code reads goesOn closes, begins.stays,
            begins.first⟩, noGap, noTable⟩
      case isFalse goesOnHere =>
        rcases Prod.mk.inj (Except.ok.inj stepped) with ⟨rfl, rfl⟩
        refine ⟨by simp, holds.append [line], part, first, tableLines ++ [line], ?_, begins,
          noGap, noTable, reads, fun other member => ?_⟩
        · simpa using grown
        · rcases List.mem_append.1 member with earlier | isNew
          · exact goesOn other earlier
          · exact List.mem_singleton.1 isNew ▸ goesOnHere
  | beforeTable parent method =>
      rcases recounts with ⟨holds, part, endsIn, begins, noMark, noTable⟩
      rcases Prod.mk.inj (Except.ok.inj stepped) with ⟨rfl, rfl⟩
      exact recounts_stepBeforeTable holds endsIn begins noMark noTable line
  | inTable parent method table =>
      rcases recounts with ⟨holds, part, endsIn, begins, marked, numbers⟩
      rw [step] at stepped
      split at stepped
      case h_1 _ =>
        rcases Prod.mk.inj (Except.ok.inj stepped) with ⟨rfl, rfl⟩
        exact recounts_stepInClass (holds_add holds endsIn begins numbers) line
      case h_2 sourceLine address found =>
        rcases bind_eq_ok_iff.1 stepped with ⟨value, isValue, stepped⟩
        rcases bind_eq_ok_iff.1 stepped with ⟨key, isKey, stepped⟩
        rcases Prod.mk.inj (Except.ok.inj stepped) with ⟨rfl, rfl⟩
        have tells : entryOf line = some (key, value) := by
          simp [entryOf, found, number_eq_ok_iff.1 isValue, number_eq_ok_iff.1 isKey]
        refine ⟨by simp, holds.append [line], { part with table := part.table ++ [line] }, ?_,
          ⟨begins.declares, begins.marks, begins.code, begins.stays, begins.first⟩, marked, ?_⟩
        · exact endsIn.append (by simp [Excerpt.lines])
        · exact numbers.insert marked (by simp [accepts, found]) tells

end step

/-- Every method that is read stands in the dump with its code, and has its source lines from the
entries of the first line number table below it; up to there no class ends and no member with a
parameter list is declared. -/
theorem holds_of_read {text : Text} {classes : List Class} (accepted : read text = .ok classes) :
    ∀ cls ∈ classes, ∀ method ∈ cls.methods, Holds (Text.lines text) method := by
  have recounts : machine.Recounts Scope.Recounts fun lines cls => HoldAll lines cls.methods :=
    { start := trivial
      step := recounts_step
      finish := fun {_ scope _} _ finished => by
        cases scope <;> simp_all [machine, finish]
      more := fun later holds => holds.append later }
  exact recounts.read accepted

/-- A line that declares a member of any kind: it is indented by two spaces and no more, and ends in
a semicolon. -/
def declaresMember (line : Text) : Bool :=
  startsWith line "  " && !startsWith line "   " && endsWith line ";"

/-- A method has its source lines from entries above the next line that declares a member or ends
the class. -/
def OwnsItsLines (lines : List Text) (method : Method) : Prop :=
  ∃ place declaration, lines[place]? = some declaration ∧
    memberLine.first? declaration = some method.header ∧
    ∀ instruction ∈ method.instructions, ∀ sourceLine, instruction.lineNumber = some sourceLine →
      ∃ line ∈ (lines.drop (place + 1)).takeWhile
          (fun line => line != closing && !declaresMember line),
        entryOf line = some (instruction.address, sourceLine)

/-- The lines of a class with a method that has no line number table, and a static initialiser that
has one. -/
def enumLines : List Text :=
  ["final class Hue \x7b", "  static Hue[] all();", "    Code:", "       0: return",
    "  static \x7b\x7d;", "    Code:", "       0: return", "    LineNumberTable:",
    "      line 3: 0", "\x7d"]

def enumDump : Text := join "\n" enumLines

/-- The method of that class. -/
def enumValues : Method where
  header := "static Hue[] all()"
  index := none
  codeSize := none
  isa := .byteCode
  instructions := [{ Instruction.ofCode 0 "0" "return" none with lineNumber := some 3 }]
  references := .empty

theorem lines_enumDump : Text.lines enumDump = enumLines := by
  -- The kernel is slow at taking strings apart, so that is done before.
  unfold enumDump enumLines
  repeat rewrite [String.toList_ofList]
  decide

theorem read_enumDump : read enumDump = .ok [⟨"final class Hue", [enumValues]⟩] := by
  unfold enumDump enumLines enumValues
  repeat rewrite [String.toList_ofList]
  decide

/-- The table that the method of that class has its source lines from stands below the static
initialiser. -/
theorem holds_of_read_enumDump :
    read enumDump = .ok [⟨"final class Hue", [enumValues]⟩] ∧ Holds enumLines enumValues := by
  refine ⟨read_enumDump, ?_⟩
  rw [← lines_enumDump]
  exact holds_of_read read_enumDump _ (List.mem_singleton_self _) enumValues (by simp)

/-- Source lines are not always a method's own: it may have those of a static initialiser. -/
theorem not_forall_ownsItsLines : ¬∀ text classes, read text = .ok classes →
    ∀ cls ∈ classes, ∀ method ∈ cls.methods, OwnsItsLines (Text.lines text) method := by
  intro own
  obtain ⟨place, declaration, isPlace, declares, told⟩ :=
    own enumDump _ read_enumDump _ (List.mem_singleton_self _) enumValues (by simp)
  rw [lines_enumDump] at isPlace told
  have isFirst : place = 1 := by
    have only : ∀ place < 10, (enumLines[place]?.bind memberLine.first?) =
        some enumValues.header → place = 1 := by decide
    have inside : place < enumLines.length := (List.getElem?_eq_some_iff.1 isPlace).1
    exact only place inside (by simp [isPlace, declares])
  subst isFirst
  obtain ⟨line, isOwn, tells⟩ := told _ (List.mem_cons_self ..) 3 rfl
  have none : ∀ line ∈ (enumLines.drop 2).takeWhile
      (fun line => line != closing && !declaresMember line), entryOf line = none := by
    decide
  rw [none line isOwn] at tells
  cases tells

end CompiledViews.Dump.Javap
