import CompiledViews.Proofs.Dump.Javap.Printed
import CompiledViews.Proofs.Dump.Javap.Sections
import Mathlib.Data.List.Chain

/-!
# Reading printed `javap` dumps

What has been printed is read back: each block gives its class, with the methods that have bodies,
and blocks of built-in classes give none. The reader tells the end of a member only by the line that
comes next. So where the code of a method is all there is of its body, the declaration below it must
not look like an instruction, or it is taken for one.
-/

namespace CompiledViews.Dump.Javap

open Text Text.Form

/-- Whether the last line of a member belongs to its code. -/
def Member.endsInCode (member : Member) : Bool :=
  member.body.any fun body => body.gap.isEmpty && body.table.isNone

/-- Where the code of a method is followed by a declaration, that has not the form of an
instruction. -/
def Block.KeepsApart (block : Block) : Prop :=
  block.members.IsChain fun member next =>
    member.endsInCode = true → instructionLine.accepts (trim next.declaration) = false

instance (block : Block) : Decidable block.KeepsApart :=
  inferInstanceAs (Decidable (List.IsChain _ _))

theorem machine_step (scope : Scope) (line : Text) : machine.step scope line = step scope line :=
  rfl

/-! ### Code -/

namespace CodeItem

variable {item : CodeItem}

theorem IsPrinted.readInstruction (printed : item.IsPrinted) :
    readInstruction item.address item.code = .ok item.plain := by
  have start : number decimal? .thisLine item.address = .ok item.address.decimalValue :=
    number_eq_ok_iff.2 printed.address.decimal?
  rw [Javap.readInstruction, start, plain]
  rcases jumps : jumpCode.first? item.code with _ | target
  · rfl
  · have isTarget : number decimal? .thisLine target = .ok target.decimalValue :=
      number_eq_ok_iff.2 (printed.target target jumps).decimal?
    simp only [isTarget]
    rfl

theorem IsPrinted.first?_instructionLine (printed : item.IsPrinted)
    (single : item.line.SingleLine) :
    instructionLine.first? (trim item.line) = some (item.address, item.code) := by
  have singleParts := single.of_part (trim_isInfix item.line)
  rw [printed.line] at singleParts ⊢
  simp only [SingleLine.append_iff] at singleParts
  refine (prefers_instructionLine printed.address singleParts.2.2 fun first isFirst => ?_).first?
  have noBlank := isBlank_of_head?_trim printed.code first isFirst
  simp only [beq_eq_false_iff_ne]
  rintro rfl
  revert noBlank
  decide

/-- A switch table is read up to the line that closes it. -/
theorem reading_table {parent : OpenClass} {method : OpenMethod} {switch : Instruction}
    {lines : List Text} {last : Text} (goesOn : ∀ line ∈ lines, trim line ≠ closing)
    (closes : trim last = closing) (cases : List Text) :
    machine.Reading (.inSwitch parent method switch cases) (lines ++ [last]) []
      (.inCode parent (method.add
        { switch with operands := switchOperands (cases ++ lines.map trim) })) := by
  induction lines generalizing cases with
  | nil => exact .one (by simp [machine, step, closes])
  | cons line lines ih =>
      obtain ⟨isCase, others⟩ := List.forall_mem_cons.1 goesOn
      have stepped : machine.step (.inSwitch parent method switch cases) line =
          .ok ([], .inSwitch parent method switch (cases ++ [trim line])) := by
        simp [machine, step, isCase]
      have readOthers := ih others (cases ++ [trim line])
      rw [List.append_assoc] at readOthers
      exact .goOn stepped readOthers

theorem IsPrinted.reading (printed : item.IsPrinted) (single : item.line.SingleLine)
    (parent : OpenClass) (method : OpenMethod) :
    machine.Reading (.inCode parent method) item.lines []
      (.inCode parent (method.add item.instruction)) := by
  have stepped : machine.step (.inCode parent method) item.line =
      if isSwitch item.plain then .ok ([], .inSwitch parent method item.plain [])
      else .ok ([], .inCode parent (method.add item.plain)) := by
    rw [machine_step, step, printed.first?_instructionLine single]
    simp only [printed.readInstruction, bind, Except.bind]
    split <;> rfl
  rw [printed.switch] at stepped
  rw [lines, instruction]
  rcases hasTable : item.table with _ | table
  · rw [hasTable] at stepped
    exact .one stepped
  · rw [hasTable] at stepped
    obtain ⟨goesOn, closes⟩ := printed.table table hasTable
    exact .goOn stepped (reading_table goesOn closes [])

end CodeItem

theorem reading_code {items : List CodeItem}
    (printed : ∀ item ∈ items, item.IsPrinted ∧ item.line.SingleLine) (parent : OpenClass)
    (method : OpenMethod) :
    machine.Reading (.inCode parent method) (items.flatMap CodeItem.lines) []
      (.inCode parent { method with
        instructions := method.instructions ++ items.map CodeItem.instruction }) := by
  induction items generalizing method with
  | nil => simpa using Machine.Reading.done _
  | cons item items ih =>
      obtain ⟨⟨isPrinted, single⟩, others⟩ := List.forall_mem_cons.1 printed
      have readOthers := ih others (method.add item.instruction)
      rw [OpenMethod.add, List.append_assoc] at readOthers
      exact (isPrinted.reading single parent method).append readOthers

/-! ### Lines that end a member -/

section ending

variable {line : Text}

/-- A line that ends a member ends in a brace or in a semicolon. -/
theorem getLast?_trim_of_ends (ends : line = closing ∨ memberLine.accepts line = true) :
    ∃ last, (trim line).getLast? = some last ∧ (last = '\x7d' ∨ last = ';') := by
  rcases ends with rfl | declares
  · exact ⟨'\x7d', by decide, .inl rfl⟩
  · exact ⟨';', getLast?_trim (getLast?_of_memberLine declares) (by decide), .inr rfl⟩

/-- The marks within a method end in a colon. -/
theorem trim_ne_of_ends (ends : line = closing ∨ memberLine.accepts line = true) {mark : Text}
    (atEnd : mark.getLast? = some ':') : trim line ≠ mark := by
  rintro rfl
  obtain ⟨last, isLast, isEnd⟩ := getLast?_trim_of_ends ends
  obtain rfl := Option.some.inj (atEnd.symm.trans isLast)
  revert isEnd
  decide

/-- An entry of a line number table ends in a digit. -/
theorem lineEntry_of_ends (ends : line = closing ∨ memberLine.accepts line = true) :
    lineEntry.first? (trim line) = none := by
  by_contra isEntry
  obtain ⟨digit, isDigitAtEnd, isDigit⟩ :=
    getLast?_of_lineEntry (Option.isSome_iff_ne_none.2 isEntry)
  obtain ⟨last, isLast, isEnd⟩ := getLast?_trim_of_ends ends
  obtain rfl := Option.some.inj (isDigitAtEnd.symm.trans isLast)
  rcases isEnd with rfl | rfl <;>
  · revert isDigit
    decide

end ending

/-! ### Line number tables -/

section tables

variable {parent : OpenClass} {method : OpenMethod}

theorem stepInClass_of_stays {line : Text} (stays : StaysInMember line) :
    stepInClass parent line = ([], .inClass parent) := by
  have declaresNone : memberLine.first? line = none := by simpa [accepts] using stays.2
  rw [stepInClass, if_neg stays.1, declaresNone]

theorem stepBeforeTable_of_stays {line : Text} (stays : StaysInMember line) :
    stepBeforeTable parent method line =
      if trim line = "LineNumberTable:" then ([], .inTable parent method .empty)
      else ([], .beforeTable parent method) := by
  rw [stepBeforeTable, if_neg (by simp [stays.1, stays.2])]

/-- Whether the code of a method has been read and its line number table has not begun. -/
def Scope.IsAfterCode (parent : OpenClass) (method : OpenMethod) (gap : List Text) (scope : Scope) :
    Prop :=
  scope = .inCode parent method ∧ gap = [] ∨ scope = .beforeTable parent method

/-- The lines between the code and the table are passed over. -/
theorem reading_gap {gap : List Text}
    (stays : ∀ line ∈ gap, StaysInMember line ∧ trim line ≠ "LineNumberTable:")
    (first : ∀ line ∈ gap.head?, instructionLine.accepts (trim line) = false) (parent : OpenClass)
    (method : OpenMethod) :
    ∃ final, machine.Reading (.inCode parent method) gap [] final ∧
      final.IsAfterCode parent method gap := by
  have passed : ∀ line ∈ gap,
      stepBeforeTable parent method line = ([], .beforeTable parent method) := by
    intro line member
    rw [stepBeforeTable_of_stays (stays line member).1, if_neg (stays line member).2]
  cases gap with
  | nil => exact ⟨_, .done _, .inl ⟨rfl, rfl⟩⟩
  | cons line gap =>
      obtain ⟨here, others⟩ := List.forall_mem_cons.1 passed
      have noInstruction : instructionLine.first? (trim line) = none := by
        simpa [accepts] using first line rfl
      refine ⟨.beforeTable parent method, .goOn ?_ (.loop fun other member => ?_), .inr rfl⟩
      · rw [machine_step, step, noInstruction]
        exact congrArg Except.ok here
      · exact congrArg Except.ok (others other member)

/-- The mark of a line number table is read where the code has ended. -/
theorem step_mark {mark : Text} {gap : List Text} {scope : Scope}
    (marks : trim mark = "LineNumberTable:") (afterCode : scope.IsAfterCode parent method gap) :
    machine.step scope mark = .ok ([], .inTable parent method .empty) := by
  have stays : StaysInMember mark := by
    have noEnd : ¬(mark = closing ∨ memberLine.accepts mark = true) :=
      fun ends => trim_ne_of_ends ends rfl marks
    simpa [StaysInMember] using noEnd
  have begins : stepBeforeTable parent method mark = ([], .inTable parent method .empty) := by
    rw [stepBeforeTable_of_stays stays, if_pos marks]
  rcases afterCode with ⟨rfl, -⟩ | rfl
  · have noInstruction : instructionLine.first? (trim mark) = none := by
      rw [marks]
      decide
    rw [machine_step, step, noInstruction]
    exact congrArg Except.ok begins
  · exact congrArg Except.ok begins

theorem reading_entries {entries : List TableEntry} (printed : ∀ entry ∈ entries, entry.IsPrinted)
    (table : NatMap Nat) :
    machine.Reading (.inTable parent method table) (entries.map TableEntry.line) []
      (.inTable parent method ((entries.map TableEntry.pair).foldl
        (fun table pair => table.insert pair.1 pair.2) table)) := by
  induction entries generalizing table with
  | nil => exact .done _
  | cons entry entries ih =>
      obtain ⟨⟨line, sourceLine, address⟩, others⟩ := List.forall_mem_cons.1 printed
      have isEntry : lineEntry.first? (trim entry.line) =
          some (entry.sourceLine, entry.address) := by
        rw [line]
        exact (prefers_lineEntry sourceLine address).first?
      have stepped : machine.step (.inTable parent method table) entry.line =
          .ok ([], .inTable parent method (table.insert entry.pair.1 entry.pair.2)) := by
        have value : number decimal? .thisLine entry.sourceLine = .ok entry.pair.2 :=
          number_eq_ok_iff.2 sourceLine.decimal?
        have key : number decimal? .thisLine entry.address = .ok entry.pair.1 :=
          number_eq_ok_iff.2 address.decimal?
        rw [machine_step, step, isEntry]
        simp only [value, key]
        rfl
      exact .goOn stepped (ih others _)

end tables

/-! ### Members -/

/-- The class that is open, with the methods that have been read, where its next member may come. -/
def Scope.settled? : Scope → Option OpenClass
  | betweenClasses | inSwitch .. => none
  | inClass parent | afterHeader parent _ => some parent
  | inCode parent method | beforeTable parent method => some (parent.add method .empty)
  | inTable parent method table => some (parent.add method table)

/-- Whether the next line may be an instruction. -/
def Scope.IsInCode : Scope → Prop
  | inCode .. => True
  | _ => False

section settled

variable {scope : Scope} {parent : OpenClass} {line : Text}

/-- Where the next member of a class may come, its declaration and the closing brace are read as in
the class itself. -/
theorem step_of_settled (settled : scope.settled? = some parent)
    (ends : line = closing ∨ memberLine.accepts line = true)
    (noCode : scope.IsInCode → instructionLine.accepts (trim line) = false) :
    machine.step scope line = .ok (stepInClass parent line) := by
  have noMark : trim line ≠ "Code:" := trim_ne_of_ends ends rfl
  have noEntry := lineEntry_of_ends ends
  have ended : ∀ parent method, stepBeforeTable parent method line =
      stepInClass (parent.add method .empty) line := by
    intro parent method
    rw [stepBeforeTable, if_pos (by simpa using ends)]
  cases scope with
  | betweenClasses | inSwitch => cases settled
  | inClass other =>
      obtain rfl := Option.some.inj settled
      rfl
  | afterHeader other header =>
      obtain rfl := Option.some.inj settled
      rw [machine_step, step, if_neg noMark]
  | inCode other method =>
      obtain rfl := Option.some.inj settled
      have noInstruction : instructionLine.first? (trim line) = none := by
        simpa [accepts] using noCode trivial
      rw [machine_step, step, noInstruction]
      exact congrArg Except.ok (ended other method)
  | beforeTable other method =>
      obtain rfl := Option.some.inj settled
      exact congrArg Except.ok (ended other method)
  | inTable other method table =>
      obtain rfl := Option.some.inj settled
      rw [machine_step, step, noEntry]

end settled

def OpenClass.adding (parent : OpenClass) (methods : List Method) : OpenClass :=
  { parent with methods := parent.methods ++ methods }

theorem OpenClass.add_eq_adding {body : Body} {table : NatMap Nat}
    (told : ∀ address, table.get? address = body.lineNumber? address) (parent : OpenClass)
    (header : Text) :
    parent.add ⟨header, body.code.map CodeItem.instruction⟩ table =
      parent.adding [body.method header] := by
  simp [add, adding, Body.method, Instruction.withLineNumbers, told]

/-- The lines below a table are passed over. -/
theorem reading_rest {rest : List Text} (stays : ∀ line ∈ rest, StaysInMember line)
    (first : ∀ line ∈ rest.head?, lineEntry.accepts (trim line) = false) (parent : OpenClass)
    (method : OpenMethod) (table : NatMap Nat) :
    ∃ final, machine.Reading (.inTable parent method table) rest [] final ∧
      final.settled? = some (parent.add method table) ∧ ¬final.IsInCode := by
  cases rest with
  | nil => exact ⟨_, .done _, rfl, id⟩
  | cons line rest =>
      obtain ⟨here, others⟩ := List.forall_mem_cons.1 stays
      have noEntry : lineEntry.first? (trim line) = none := by simpa [accepts] using first line rfl
      refine ⟨.inClass _, .goOn ?_ (.loop fun other member => ?_), rfl, id⟩
      · rw [machine_step, step, noEntry]
        exact congrArg Except.ok (stepInClass_of_stays here)
      · exact congrArg Except.ok (stepInClass_of_stays (others other member))

theorem Body.IsPrinted.reading {body : Body} (printed : body.IsPrinted)
    (single : ∀ item ∈ body.code, item.line.SingleLine) (parent : OpenClass) (header : Text) :
    ∃ final, machine.Reading (.afterHeader parent header) body.lines [] final ∧
      final.settled? = some (parent.adding [body.method header]) ∧
      (final.IsInCode → body.gap = [] ∧ body.table = none) := by
  have readMark : machine.step (.afterHeader parent header) body.mark =
      .ok ([], .inCode parent ⟨header, []⟩) := by
    rw [machine_step, step, if_pos printed.mark]
  have readCode := reading_code
    (fun item member => ⟨printed.code item member, single item member⟩) parent ⟨header, []⟩
  obtain ⟨between, readGap, afterCode⟩ := reading_gap printed.stays printed.first parent
    ⟨header, body.code.map CodeItem.instruction⟩
  rw [lines]
  rcases hasTable : body.table with _ | table
  · refine ⟨between, .goOn readMark (readCode.append (readGap.append (.done _))), ?_, ?_⟩
    · -- without a table the method is added where the next member or the end of the class comes
      have told : ∀ address, NatMap.empty.get? address = body.lineNumber? address := by
        simp [lineNumber?, hasTable]
      rw [← OpenClass.add_eq_adding told]
      rcases afterCode with ⟨rfl, -⟩ | rfl <;> rfl
    · rintro inCode
      rcases afterCode with ⟨rfl, noGap⟩ | rfl
      · exact ⟨noGap, rfl⟩
      · cases inCode
  · obtain ⟨marks, entries, stays, first⟩ := printed.table table hasTable
    obtain ⟨final, readRest, settled, noCode⟩ := reading_rest stays first parent _ _
    have readTable := (reading_entries entries .empty).append readRest
    refine ⟨final, .goOn readMark (readCode.append (readGap.append
      (.goOn (step_mark marks afterCode) readTable))), ?_, fun inCode => absurd inCode noCode⟩
    have told : ∀ address, (NatMap.ofList (table.entries.map TableEntry.pair)).get? address =
        body.lineNumber? address := by
      simp [lineNumber?, hasTable, NatMap.get?_ofList]
    rw [← OpenClass.add_eq_adding told]
    exact settled

theorem Member.IsPrinted.reading {member : Member} {scope : Scope} {parent : OpenClass}
    (printed : member.IsPrinted) (single : ∀ line ∈ member.lines, line.SingleLine)
    (settled : scope.settled? = some parent)
    (apart : scope.IsInCode → instructionLine.accepts (trim member.declaration) = false) :
    ∃ final, machine.Reading scope member.lines [] final ∧
      final.settled? = some (parent.adding member.method?.toList) ∧
      (final.IsInCode → member.endsInCode = true) := by
  have declares := (printed.prefers_memberLine (single _ List.mem_cons_self)).first?
  have readDeclaration : machine.step scope member.declaration =
      .ok ([], .afterHeader parent member.header) := by
    have noEnd : member.declaration ≠ closing := fun isEnd => by
      have atHead : member.declaration.head? = some ' ' := rfl
      rw [isEnd] at atHead
      revert atHead
      decide
    rw [step_of_settled settled (.inr (by simp [accepts, declares])) apart, stepInClass,
      if_neg noEnd, declares]
  rw [lines, method?, endsInCode]
  rcases hasBody : member.body with _ | body
  · exact ⟨.afterHeader parent member.header, .one readDeclaration,
      by simp [OpenClass.adding, Scope.settled?], False.elim⟩
  · have singleCode : ∀ item ∈ body.code, item.line.SingleLine := by
      intro item inCode
      refine single _ (List.mem_cons_of_mem _ ?_)
      simp only [hasBody, Option.elim_some, Body.lines, List.mem_cons, List.mem_append,
        List.mem_flatMap]
      exact .inr (.inl ⟨item, inCode, List.mem_cons_self⟩)
    obtain ⟨final, readBody, settledAfter, inCode⟩ :=
      (printed.body body hasBody).reading singleCode parent member.header
    exact ⟨final, .goOn readDeclaration readBody, settledAfter, fun isInCode => by
      simp [inCode isInCode]⟩

/-! ### Classes -/

theorem reading_members {members : List Member} {scope : Scope} {parent : OpenClass}
    (printed : ∀ member ∈ members, member.IsPrinted ∧ ∀ line ∈ member.lines, line.SingleLine)
    (apart : members.IsChain fun member next =>
      member.endsInCode = true → instructionLine.accepts (trim next.declaration) = false)
    (settled : scope.settled? = some parent)
    (first : ∀ next ∈ members.head?, scope.IsInCode →
      instructionLine.accepts (trim next.declaration) = false) :
    ∃ final, machine.Reading scope (members.flatMap Member.lines) [] final ∧
      final.settled? = some (parent.adding (members.filterMap Member.method?)) := by
  -- a member leaves the reader in one of several scopes, so the next one is read from any of them
  induction members generalizing scope parent with
  | nil => exact ⟨scope, .done scope, by simpa [OpenClass.adding] using settled⟩
  | cons member members ih =>
      obtain ⟨⟨isPrinted, single⟩, others⟩ := List.forall_mem_cons.1 printed
      obtain ⟨apartHere, apartOthers⟩ := List.isChain_cons.1 apart
      obtain ⟨between, readMember, settledBetween, endsInCode⟩ :=
        isPrinted.reading single settled (first member rfl)
      obtain ⟨final, readOthers, settledFinal⟩ := ih others apartOthers settledBetween
        fun next isNext inCode => apartHere next isNext (endsInCode inCode)
      refine ⟨final, readMember.append readOthers, ?_⟩
      rw [settledFinal, List.filterMap_cons]
      rcases member.method? with _ | method <;> simp [OpenClass.adding]

theorem Block.IsPrinted.reading {block : Block} (printed : block.IsPrinted)
    (apart : block.KeepsApart) :
    machine.Reading .betweenClasses block.lines block.classes .betweenClasses := by
  obtain ⟨opens, members, areLines⟩ := printed
  have single : ∀ member ∈ block.members, ∀ line ∈ member.lines, line.SingleLine := by
    intro member isMember line inMember
    refine (areLines line ?_).single
    exact List.mem_cons_of_mem _ (List.mem_append_left _
      (List.mem_flatMap.2 ⟨member, isMember, inMember⟩))
  have readOpening : machine.step .betweenClasses block.opening =
      .ok ([], .inClass ⟨block.header, block.name, []⟩) := by
    rw [machine_step, step, opens]
  have isOpen : (Scope.inClass ⟨block.header, block.name, []⟩).settled? =
      some ⟨block.header, block.name, []⟩ := rfl
  obtain ⟨final, readMembers, settled⟩ := reading_members
    (fun member isMember => ⟨members member isMember, single member isMember⟩) apart isOpen
    fun _ _ => False.elim
  have readClosing : machine.step final closing = .ok (block.classes, .betweenClasses) := by
    rw [step_of_settled settled (.inl rfl)
      fun _ => by simp [accepts, first?_instructionLine_closing], stepInClass, if_pos rfl]
    rfl
  exact .goOn readOpening (readMembers.append (.one readClosing))

/-- What has been printed is read back. -/
theorem read_unlines_blocks {blocks : List Block}
    (printed : ∀ block ∈ blocks, block.IsPrinted ∧ block.KeepsApart) :
    read (unlines (blocks.flatMap Block.lines)) = .ok (blocks.flatMap Block.classes) := by
  have areLines : ∀ line ∈ blocks.flatMap Block.lines, line.IsLine := by
    intro line member
    obtain ⟨block, isBlock, inBlock⟩ := List.mem_flatMap.1 member
    exact (printed block isBlock).1.lines line inBlock
  refine Machine.read_eq_ok_iff.2 ⟨_, .betweenClasses, [], ?_, rfl, (List.append_nil _).symm⟩
  rw [lines_unlines areLines]
  exact .flatMap fun block isBlock => (printed block isBlock).1.reading (printed block isBlock).2

/-- Two classes: one with a method that has a switch and a line number table, one without code and
one whose body is nothing but code, and a built-in one. -/
def lampBlocks : List Block :=
  [{ opening := "public final class demo.Lamp extends demo.Light \x7b"
     header := "public final class demo.Lamp"
     name := "demo.Lamp"
     members :=
      [{ header := "public int pick(int)"
         thrown := some "java.io.IOException"
         body := some
          { mark := "    Code:"
            code :=
              [{ line := "       0: tableswitch   \x7b // 0 to 0", address := "0"
                 code := "tableswitch   \x7b // 0 to 0"
                 table := some
                  { cases := ["               0: 9", "         default: 8"]
                    last := "          \x7d" } },
               { line := "       8: goto          0", address := "8", code := "goto          0"
                 table := none },
               { line := "      11: ireturn", address := "11", code := "ireturn", table := none }]
            gap := ["    StackMapTable: number_of_entries = 1"]
            table := some
              { mark := "    LineNumberTable:"
                entries := [⟨"      line 3: 0", "3", "0"⟩, ⟨"      line 4: 8", "4", "8"⟩,
                  ⟨"      line 5: 8", "5", "8"⟩]
                rest := ["    LocalVariableTable:"] } } },
       { header := "public abstract void dim(long)", thrown := none, body := none },
       { header := "public demo.Lamp()"
         thrown := none
         body := some
          { mark := "    Code:"
            code := [⟨"       0: return", "0", "return", none⟩]
            gap := [], table := none } },
       { header := "static int on()", thrown := none, body := none }] },
   { opening := "public final class kotlin.Unit \x7b"
     header := "public final class kotlin.Unit"
     name := "kotlin.Unit"
     members := [⟨"public java.lang.String toString()", none, none⟩] }]

/-- The class that is read from these blocks. -/
def lampClass : Class where
  header := "public final class demo.Lamp"
  methods :=
    [{ header := "public int pick(int)", index := none, codeSize := none, isa := .byteCode
       instructions :=
        [{ Instruction.ofCode 0 "0" "tableswitch" none with
            operands := "\x7b 0: 9, default: 8 \x7d", lineNumber := some 3 },
         { Instruction.ofCode 8 "8" "goto 0" (some 0) with lineNumber := some 5 },
         Instruction.ofCode 11 "11" "ireturn" none]
       references := .empty },
     { header := "public demo.Lamp()", index := none, codeSize := none, isa := .byteCode
       instructions := [Instruction.ofCode 0 "0" "return" none]
       references := .empty }]

theorem lampBlocks_arePrinted : ∀ block ∈ lampBlocks, block.IsPrinted ∧ block.KeepsApart := by
  -- The kernel is slow at taking strings apart, so that is done before.
  unfold lampBlocks
  repeat rewrite [String.toList_ofList]
  decide +kernel

theorem read_unlines_lampBlocks :
    (∀ block ∈ lampBlocks, block.IsPrinted ∧ block.KeepsApart) ∧
      lampBlocks.flatMap Block.classes = [lampClass] ∧
      read (unlines (lampBlocks.flatMap Block.lines)) = .ok [lampClass] := by
  have classes : lampBlocks.flatMap Block.classes = [lampClass] := by
    unfold lampBlocks lampClass
    repeat rewrite [String.toList_ofList]
    decide
  refine ⟨lampBlocks_arePrinted, classes, ?_⟩
  rw [← classes]
  exact read_unlines_blocks lampBlocks_arePrinted

/-- A class with a method whose body is nothing but code, and below it a declaration that has the
form of an instruction. -/
def closeBlock : Block where
  opening := "final class Ab \x7b"
  header := "final class Ab"
  name := "Ab"
  members :=
    [{ header := "f()"
       thrown := none
       body := some
        { mark := "    Code:", code := [⟨"       0: return", "0", "return", none⟩]
          gap := [], table := none } },
     { header := "1: g()", thrown := none, body := none }]

/-- Where a declaration follows code and has the form of an instruction, it is read as one. -/
theorem not_forall_read_unlines : ¬∀ blocks : List Block, (∀ block ∈ blocks, block.IsPrinted) →
    read (unlines (blocks.flatMap Block.lines)) = .ok (blocks.flatMap Block.classes) := by
  intro all
  have same := all [closeBlock] (by decide)
  revert same
  decide

end CompiledViews.Dump.Javap
