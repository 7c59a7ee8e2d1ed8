import CompiledViews.Proofs.Dump.Dexdump.Printed
import CompiledViews.Proofs.NatMap

/-!
# Reading printed `dexdump` dumps

What has been printed is read back: each block gives its class with the methods that have code, but
for built-in classes and classes without such methods. The lines between the parts may say anything
else, since the reader passes over whatever is none of the lines that it looks for.
-/

namespace CompiledViews.Dump.Dexdump

open Text Text.Form

theorem machine_step (scope : Scope) (line : Text) : machine.step scope line = step scope line :=
  rfl

/-! ### Methods -/

section lines

variable {parent : OpenClass} {method : OpenMethod}

theorem reading_code {items : List CodeItem} (printed : ∀ item ∈ items, item.IsPrinted)
    (method : OpenMethod) :
    machine.Reading (.inCode parent method) (items.map CodeItem.line) []
      (.inCode parent { method with
        instructions := method.instructions ++ items.map CodeItem.instruction }) := by
  induction items generalizing method with
  | nil => simpa using Machine.Reading.done _
  | cons item items ih =>
      obtain ⟨isPrinted, others⟩ := List.forall_mem_cons.1 printed
      have stepped : machine.step (.inCode parent method) item.line =
          .ok ([], .inCode parent (method.add item.instruction)) := by
        rw [machine_step, step, if_neg (ne_true_of_eq_false isPrinted.flush),
          isPrinted.readInstruction]
        rfl
      have readOthers := ih others (method.add item.instruction)
      rw [OpenMethod.add, List.append_assoc] at readOthers
      exact .goOn stepped readOthers

theorem step_of_spaced {scope : Scope} {line : Text}
    (afterCode : scope = .inCode parent method ∨ scope = .beforePositions parent method)
    (spaced : startsWith line " " = true) :
    machine.step scope line = .ok ([], stepBeforePositions parent method line) := by
  rcases afterCode with rfl | rfl
  · rw [machine_step, step, if_pos spaced]
  · rfl

/-- The lines between the code and the table are passed over, and then the table is open. -/
theorem reading_gap {gap : List Text} {mark : Text} {scope : Scope}
    (afterCode : scope = .inCode parent method ∨ scope = .beforePositions parent method)
    (isGap : ∀ line ∈ gap, startsWith line " " = true ∧ marksPositions line = false)
    (isMark : startsWith mark " " = true ∧ marksPositions mark = true) :
    machine.Reading scope (gap ++ [mark]) [] (.inPositions parent method .empty) := by
  induction gap generalizing scope with
  | nil =>
      have opens : stepBeforePositions parent method mark = .inPositions parent method .empty :=
        if_pos isMark.2
      exact .one ((step_of_spaced afterCode isMark.1).trans (by rw [opens]))
  | cons line gap ih =>
      obtain ⟨⟨spaced, noMark⟩, others⟩ := List.forall_mem_cons.1 isGap
      have passes : stepBeforePositions parent method line = .beforePositions parent method :=
        if_neg (ne_true_of_eq_false noMark)
      exact .goOn ((step_of_spaced afterCode spaced).trans (by rw [passes])) (ih (.inr rfl) others)

theorem reading_entries {entries : List TableEntry} (printed : ∀ entry ∈ entries, entry.IsPrinted)
    (table : NatMap Nat) :
    machine.Reading (.inPositions parent method table) (entries.map TableEntry.line) []
      (.inPositions parent method ((entries.map TableEntry.pair).foldl
        (fun table pair => table.insert pair.1 pair.2) table)) := by
  induction entries generalizing table with
  | nil => exact .done _
  | cons entry entries ih =>
      obtain ⟨isPrinted, others⟩ := List.forall_mem_cons.1 printed
      have stepped : machine.step (.inPositions parent method table) entry.line =
          .ok ([], .inPositions parent method (table.insert entry.pair.1 entry.pair.2)) := by
        have key : number hexadecimal? .thisLine entry.address = .ok entry.pair.1 :=
          number_eq_ok_iff.2 isPrinted.address.isHex.hexadecimal?
        have value : number decimal? .thisLine entry.sourceLine = .ok entry.pair.2 :=
          number_eq_ok_iff.2 isPrinted.sourceLine.decimal?
        rw [machine_step, step, isPrinted.first?_positionLine]
        simp only [key, value]
        rfl
      exact .goOn stepped (ih others _)

end lines

/-- The class that is open, with the methods that have been read, where a line outside its methods
may come. -/
def Scope.settled? : Scope → Option OpenClass
  | inClass parent => some parent
  | inPositions parent method table => (parent.add method table).toOption
  | _ => none

section settled

variable {scope : Scope} {parent : OpenClass} {line : Text}

theorem step_of_settled (settled : scope.settled? = some parent)
    (noEntry : positionLine.accepts line = false) :
    machine.step scope line = stepInClass parent line := by
  cases scope with
  | betweenClasses | beforeDescriptor | beforeSignature | inCode | beforePositions => cases settled
  | inClass other =>
      obtain rfl := Option.some.inj settled
      rfl
  | inPositions other method table =>
      have isNone : positionLine.first? line = none := by simpa [accepts] using noEntry
      rw [machine_step, step, isNone]
      rcases added : other.add method table with _ | next
      · simp [Scope.settled?, added, Except.toOption] at settled
      · obtain rfl : next = parent := by
          simpa [Scope.settled?, added, Except.toOption] using settled
        rfl

theorem stepInClass_of_isMarker (noMarker : isMarker line = false) :
    stepInClass parent line = .ok ([], .inClass parent) := by
  simp only [isMarker, announcesCode, endsClass, Bool.or_eq_false_iff] at noMarker
  rw [stepInClass, if_neg (ne_true_of_eq_false noMarker.1.2),
    if_neg (ne_true_of_eq_false noMarker.1.1)]

theorem positionLine_of_isMarker (marker : isMarker line = true) :
    positionLine.accepts line = false := by
  by_contra isEntry
  simp [isMarker_of_positionLine (by simpa using isEntry)] at marker

/-- Lines outside the methods are passed over. -/
theorem reading_others {lines : List Text} (settled : scope.settled? = some parent)
    (others : ∀ line ∈ lines, isMarker line = false)
    (first : ∀ line ∈ lines.head?, positionLine.accepts line = false) :
    ∃ final, machine.Reading scope lines [] final ∧ final.settled? = some parent := by
  cases lines with
  | nil => exact ⟨scope, .done scope, settled⟩
  | cons line lines =>
      obtain ⟨noMarker, rest⟩ := List.forall_mem_cons.1 others
      refine ⟨.inClass parent, .goOn ?_ (.loop fun other member => ?_), rfl⟩
      · rw [step_of_settled settled (first line rfl), stepInClass_of_isMarker noMarker]
      · exact stepInClass_of_isMarker (rest other member)

end settled

def OpenClass.adding (parent : OpenClass) (methods : List Method) : OpenClass :=
  { parent with methods := parent.methods ++ methods }

namespace Member

variable {member : Member} {scope : Scope} {parent : OpenClass}

/-- The method of a member while its code is being read. -/
def opened (member : Member) (instructions : List Instruction) : OpenMethod :=
  ⟨member.units.decimalValue * 2, member.name, member.type.encode, instructions⟩

theorem IsPrinted.add (printed : member.IsPrinted) (parent : OpenClass) :
    parent.add (member.opened (member.code.map CodeItem.instruction))
        (NatMap.ofList (member.entries.map TableEntry.pair)) =
      .ok (parent.adding [member.method parent.name]) := by
  rw [OpenClass.add, opened, printed.type.decode_encode]
  simp [OpenClass.adding, method, lineNumber?, Instruction.withLineNumbers, NatMap.get?_ofList]

theorem IsPrinted.step_announcement (printed : member.IsPrinted)
    (settled : scope.settled? = some parent) : machine.step scope member.announcement =
      .ok ([], .beforeSignature parent (member.units.decimalValue * 2)) := by
  have announces : startsWith (trim member.announcement) "insns size" = true :=
    printed.announcesCode
  have noEntry : positionLine.accepts member.announcement = false :=
    positionLine_of_isMarker (by simp [isMarker, printed.announcesCode])
  have noEnd : startsWith (trim member.announcement) "source_file_idx" = false :=
    startsWith_trim_eq_false (head?_dropWhile_of_startsWith rfl announces) rfl (by decide)
  rw [step_of_settled settled noEntry, stepInClass, if_neg (ne_true_of_eq_false noEnd),
    if_pos announces, printed.codeSize]
  rfl

theorem IsPrinted.step_signature (printed : member.IsPrinted) (parent : OpenClass) :
    machine.step (.beforeSignature parent (member.units.decimalValue * 2)) member.signature =
      .ok ([], .inCode parent (member.opened [])) := by
  rw [machine_step, step, printed.stepSignature]
  rfl

theorem IsPrinted.reading (printed : member.IsPrinted)
    (others : ∀ line ∈ member.below, isMarker line = false)
    (settled : scope.settled? = some parent) :
    ∃ final, machine.Reading scope member.lines [] final ∧
      final.settled? = some (parent.adding [member.method parent.name]) := by
  let method := member.opened (member.code.map CodeItem.instruction)
  have readCode : machine.Reading (.inCode parent (member.opened []))
      (member.code.map CodeItem.line) [] (.inCode parent method) :=
    reading_code printed.code (member.opened [])
  have readGap : machine.Reading (.inCode parent method) (member.gap ++ [member.mark]) []
      (.inPositions parent method .empty) :=
    reading_gap (.inl rfl) printed.gap printed.mark
  have readEntries : machine.Reading (.inPositions parent method .empty)
      (member.entries.map TableEntry.line) []
      (.inPositions parent method (NatMap.ofList (member.entries.map TableEntry.pair))) :=
    reading_entries printed.entries .empty
  have isAdded : (Scope.inPositions parent method
      (NatMap.ofList (member.entries.map TableEntry.pair))).settled? =
        some (parent.adding [member.method parent.name]) := by
    rw [Scope.settled?, printed.add]
    rfl
  obtain ⟨final, readAfter, isSettled⟩ := reading_others isAdded
    (fun line inAfter => others line (by simp [below, inAfter])) printed.after
  refine ⟨final, .goOn (printed.step_announcement settled) (.goOn (printed.step_signature parent)
    (readCode.append ?_)), isSettled⟩
  rw [List.append_cons]
  exact readGap.append (readEntries.append readAfter)

end Member

/-! ### Classes -/

theorem reading_members {members : List Member} {scope : Scope} {parent : OpenClass}
    (printed : ∀ member ∈ members, member.IsPrinted)
    (others : ∀ line ∈ members.flatMap Member.below, isMarker line = false)
    (settled : scope.settled? = some parent) :
    ∃ final, machine.Reading scope (members.flatMap Member.lines) [] final ∧
      final.settled? = some (parent.adding (members.map (Member.method parent.name))) := by
  -- a member leaves the reader in one of two scopes, so the next one is read from either of them
  induction members generalizing scope parent with
  | nil => exact ⟨scope, .done scope, by simpa [OpenClass.adding] using settled⟩
  | cons member members ih =>
      obtain ⟨isPrinted, printedOthers⟩ := List.forall_mem_cons.1 printed
      rw [List.flatMap_cons] at others
      obtain ⟨ofMember, ofOthers⟩ := List.forall_mem_append.1 others
      obtain ⟨between, readMember, settledBetween⟩ := isPrinted.reading ofMember settled
      obtain ⟨final, readOthers, settledFinal⟩ := ih printedOthers ofOthers settledBetween
      refine ⟨final, readMember.append readOthers, ?_⟩
      rw [settledFinal]
      simp [OpenClass.adding]

/-- Between classes lines that open none are passed over. -/
theorem reading_betweenClasses {lines : List Text}
    (opensNone : ∀ line ∈ lines, opensClass line = false) :
    machine.Reading .betweenClasses lines [] .betweenClasses := by
  refine .loop fun line member => ?_
  have noClass : startsWith (trim line) "Class #" = false := opensNone line member
  rw [machine_step, step, if_neg (ne_true_of_eq_false noClass)]

namespace Block

variable {block : Block}

/-- Of the lines below the descriptor none opens a class. -/
theorem IsPrinted.opensClass (printed : block.IsPrinted) :
    ∀ line ∈ block.before ++ (block.members.flatMap Member.lines ++ [block.last]),
      opensClass line = false := by
  have ofMarker {line : Text} (noMarker : isMarker line = false) :
      Dexdump.opensClass line = false := by
    simp only [isMarker, Bool.or_eq_false_iff] at noMarker
    exact noMarker.2
  obtain ⟨ofBefore, ofMembers⟩ := List.forall_mem_append.1 printed.others
  refine List.forall_mem_append.2 ⟨fun line inBefore => ofMarker (ofBefore line inBefore), ?_⟩
  refine List.forall_mem_append.2 ⟨fun line inMembers => ?_, fun line isLast => ?_⟩
  · obtain ⟨member, isMember, inLines⟩ := List.mem_flatMap.1 inMembers
    rcases List.mem_cons.1 inLines with rfl | inBelow
    · exact startsWith_trim_eq_false (head?_dropWhile_of_startsWith rfl
        (printed.members member isMember).announcesCode) rfl (by decide)
    · exact ofMarker (ofMembers line (List.mem_flatMap.2 ⟨member, isMember, inBelow⟩))
  · obtain rfl := List.mem_singleton.1 isLast
    exact startsWith_trim_eq_false (head?_dropWhile_of_startsWith rfl printed.last) rfl (by decide)

/-- The lines of a class that is not built in. -/
theorem IsPrinted.reading_below (printed : block.IsPrinted) :
    machine.Reading (.inClass ⟨block.name, []⟩)
      (block.before ++ (block.members.flatMap Member.lines ++ [block.last]))
      (OpenClass.complete ⟨block.name, block.members.map (Member.method block.name)⟩)
      .betweenClasses := by
  obtain ⟨ofBefore, ofMembers⟩ := List.forall_mem_append.1 printed.others
  have readBefore : machine.Reading (.inClass ⟨block.name, []⟩) block.before []
      (.inClass ⟨block.name, []⟩) :=
    .loop fun line inBefore => stepInClass_of_isMarker (ofBefore line inBefore)
  have isOpen : (Scope.inClass ⟨block.name, []⟩).settled? = some ⟨block.name, []⟩ := rfl
  obtain ⟨final, readMembers, settled⟩ := reading_members printed.members ofMembers isOpen
  have noEntry : positionLine.accepts block.last = false :=
    positionLine_of_isMarker (by simp [isMarker, printed.last])
  have readLast : machine.step final block.last =
      .ok (OpenClass.complete ⟨block.name, block.members.map (Member.method block.name)⟩,
        .betweenClasses) := by
    rw [step_of_settled settled noEntry]
    exact if_pos printed.last
  exact readBefore.append (readMembers.append (.one readLast))

theorem classes_of_own (own : isBuiltIn block.name = false) : block.classes =
    OpenClass.complete ⟨block.name, block.members.map (Member.method block.name)⟩ := by
  rw [classes, own]
  rcases block.members with _ | ⟨member, members⟩ <;> rfl

theorem IsPrinted.reading (printed : block.IsPrinted) :
    machine.Reading .betweenClasses block.lines block.classes .betweenClasses := by
  have readPreface := reading_betweenClasses printed.preface
  have readOpening : machine.step .betweenClasses block.opening = .ok ([], .beforeDescriptor) := by
    have opens : startsWith (trim block.opening) "Class #" = true := printed.opening
    rw [machine_step, step, if_pos opens]
  have readDescriptor : machine.step .beforeDescriptor block.descriptor =
      .ok ([], if isBuiltIn block.name then .betweenClasses else .inClass ⟨block.name, []⟩) := by
    rw [machine_step, step, stepDescriptor, printed.className?]
    rfl
  rcases builtIn : isBuiltIn block.name with _ | _
  · rw [builtIn, if_neg Bool.false_ne_true] at readDescriptor
    rw [classes_of_own builtIn]
    exact readPreface.append (.goOn readOpening (.goOn readDescriptor printed.reading_below))
  · rw [builtIn, if_pos rfl] at readDescriptor
    rw [classes, builtIn]
    exact readPreface.append (.goOn readOpening (.goOn readDescriptor
      (reading_betweenClasses printed.opensClass)))

end Block

/-- What has been printed is read back. -/
theorem read_unlines_of_isPrinted {blocks : List Block}
    (printed : ∀ block ∈ blocks, block.IsPrinted) :
    read (unlines (blocks.flatMap Block.lines)) = .ok (blocks.flatMap Block.classes) := by
  have areLines : ∀ line ∈ blocks.flatMap Block.lines, line.IsLine := by
    intro line member
    obtain ⟨block, isBlock, inBlock⟩ := List.mem_flatMap.1 member
    exact (printed block isBlock).lines line inBlock
  refine Machine.read_eq_ok_iff.2 ⟨_, .betweenClasses, [], ?_, rfl, (List.append_nil _).symm⟩
  rw [lines_unlines areLines]
  exact .flatMap fun block isBlock => (printed block isBlock).reading

/-- A class with a method, a built-in class and a class without code. In the method there is a
string with a bar, a period, a colon and an arrow in it, a jump, and an address with two entries. -/
def kiteBlocks : List Block :=
  [{ preface := ["Opened 'classes.dex', DEX version '035'"]
     opening := "Class #0            -"
     descriptor := "  Class descriptor  : 'Ldemo/Kite;'"
     padding := 2
     path := "demo/Kite"
     before := ["  Direct methods    -", "      name          : 'pull'"]
     members :=
      [{ announcement := "      insns size    : 5 16-bit code units"
         padding := 4
         units := "5"
         front := "000150:                   |[000150] demo.Kite"
         name := "pull"
         type :=
          ⟨[⟨.primitive .int, 0⟩, ⟨.ofClass "java/lang/String", 1⟩], ⟨.ofClass "demo/Kite", 0⟩⟩
         code :=
          [⟨"000160: 1a00 0100          ", "0000",
              "const-string v0, \"a|b.c: d → e\" // string@0001"⟩,
           ⟨"000164: 3800 0200          ", "0002", "if-eqz v0, 0004 // +0002"⟩,
           ⟨"", "0004", "return-object v0"⟩]
         gap := ["      catches       : (none)"]
         mark := "      positions     : "
         entries :=
          [⟨"        ", "0000", "3"⟩, ⟨"        ", "0002", "4"⟩, ⟨"        ", "0002", "5"⟩]
         after :=
          ["      locals        : ", "        0x0000 - 0x0005 reg=1 this Ldemo/Kite;", ""] }]
     last := "  source_file_idx   : 3 (Kite.kt)" },
   { preface := [""]
     opening := "Class #1            -"
     descriptor := "  Class descriptor  : 'Lkotlin/Unit;'"
     padding := 2
     path := "kotlin/Unit"
     before := []
     members := []
     last := "  source_file_idx   : 9 (Unit.java)" },
   { preface := []
     opening := "Class #2            -"
     descriptor := "  Class descriptor  : 'LEmpty;'"
     padding := 2
     path := "Empty"
     before := ["  Access flags      : 0x0011 (PUBLIC FINAL)"]
     members := []
     last := "  source_file_idx   : 4 (Empty.kt)" }]

/-- The class that is read from these blocks. -/
def kiteClass : Class where
  header := "class demo.Kite"
  methods :=
    [{ header := "demo.Kite demo.Kite.pull(int, String[])"
       index := none
       codeSize := some 10
       isa := .dex
       instructions :=
        [{ Instruction.ofCode 0 "0000" "const-string v0, \"a|b.c: d → e\" // string@0001" none with
            lineNumber := some 3 },
         { Instruction.ofCode 2 "0002" "if-eqz v0, 0004 // +0002" (some 4) with
            lineNumber := some 5 },
         Instruction.ofCode 4 "0004" "return-object v0" none]
       references := .empty }]

theorem kiteBlocks_arePrinted : ∀ block ∈ kiteBlocks, block.IsPrinted := by
  -- The kernel is slow at taking strings apart, so that is done before.
  unfold kiteBlocks
  repeat rewrite [String.toList_ofList]
  decide

theorem read_unlines_kiteBlocks :
    (∀ block ∈ kiteBlocks, block.IsPrinted) ∧ kiteBlocks.flatMap Block.classes = [kiteClass] ∧
      read (unlines (kiteBlocks.flatMap Block.lines)) = .ok [kiteClass] := by
  have classes : kiteBlocks.flatMap Block.classes = [kiteClass] := by
    unfold kiteBlocks kiteClass
    repeat rewrite [String.toList_ofList]
    decide
  refine ⟨kiteBlocks_arePrinted, classes, ?_⟩
  rw [← classes]
  exact read_unlines_of_isPrinted kiteBlocks_arePrinted

end CompiledViews.Dump.Dexdump
