import CompiledViews.Proofs.Dump.Oatdump.Composition
import CompiledViews.Proofs.Dump.Oatdump.PrintedCode
import CompiledViews.Proofs.NatMap

/-!
# Reading printed `oatdump` dumps

What has been printed is read back, as long as no number is too large for the reader: each block
gives its class with the methods that have both codes, but for built-in classes and classes without
such methods.
-/

namespace CompiledViews.Dump.Oatdump

open Text Text.Form

section methods

variable {architecture : Architecture} {parent : OpenClass} {position : Position}
  {head : MethodHead} {references : NatMap Text} {line : Text}

/-! ### The DEX code -/

theorem EchoLine.IsPrinted.reading {line : EchoLine} (printed : line.IsPrinted)
    (fits : ∀ pair ∈ line.reference?, pair.1 < wordLimit) (single : line.text.SingleLine) :
    machine.Reading (.inClass architecture parent (.inEcho head references)) [line.text] []
      (.inClass architecture parent (.inEcho head (line.reference?.toList.foldl
        (fun map pair => map.insert pair.1 pair.2) references))) := by
  have isLine := printed.first?_dexLine single
  have singleCode := singleLine_code single
  rcases printed with ⟨-, address, -, -, -, -, -, isCode⟩
  apply reading_one
  · exact (beginsWith_of_dexLine (by simp [accepts, isLine])).isBoundary (.inr (by decide))
  · rw [stepInMethod, isLine]
    rcases code : line.code with call | other
    · rw [code] at isCode singleCode
      have isCall := isCode.first?_invocation singleCode
      have isReference : line.reference? = some (line.address.hexValue, call.name) := by
        rw [reference?, code]
      have small : line.address.hexValue < wordLimit := fits _ isReference
      have key : number hexadecimal? .thisLine line.address = .ok line.address.hexValue :=
        number_eq_ok_iff.2 (isHex_of_isRun address small).hexadecimal?
      simp only [DexCode.text, isCall, key, isReference]
      rfl
    · rw [code] at isCode
      have noCall : invocation.first? other = none := by simpa [accepts] using isCode.2
      simp only [DexCode.text, noCall, reference?, code]
      rfl

theorem reading_echo {echo : List EchoLine} (printed : ∀ line ∈ echo, line.IsPrinted)
    (fits : ∀ pair ∈ echo.filterMap EchoLine.reference?, pair.1 < wordLimit)
    (single : ∀ line ∈ echo.map EchoLine.text, line.SingleLine) (references : NatMap Text) :
    machine.Reading (.inClass architecture parent (.inEcho head references))
      (echo.map EchoLine.text) []
      (.inClass architecture parent (.inEcho head ((echo.filterMap EchoLine.reference?).foldl
        (fun map pair => map.insert pair.1 pair.2) references))) := by
  induction echo generalizing references with
  | nil => exact .done _
  | cons line echo ih =>
      rcases List.forall_mem_cons.1 printed with ⟨isPrinted, printedOthers⟩
      rcases List.forall_mem_cons.1 single with ⟨singleHere, singleOthers⟩
      have split : (line :: echo).filterMap EchoLine.reference? =
          line.reference?.toList ++ echo.filterMap EchoLine.reference? := by
        rw [List.filterMap_cons]
        cases line.reference? <;> rfl
      rw [split] at fits ⊢
      rcases List.forall_mem_append.1 fits with ⟨fitsHere, fitsOthers⟩
      rw [List.foldl_append]
      have readHere : machine.Reading (.inClass architecture parent (.inEcho head references))
          [line.text] [] _ :=
        isPrinted.reading (fun pair isPair => fitsHere pair (by simpa using isPair)) singleHere
      exact readHere.append (ih printedOthers fitsOthers singleOthers _)

/-! ### Between the codes -/

/-- The reader stands below the mark of the DEX code, where the native code may begin. -/
def Position.AwaitsCode (head : MethodHead) (references : NatMap Text) (position : Position) :
    Prop :=
  position = .inEcho head references ∨ position = .beforeCode head references

theorem Position.AwaitsCode.stepInMethod (awaits : position.AwaitsCode head references)
    (notTaken : position.takes line = false) :
    Oatdump.stepInMethod architecture line position = stepBeforeCode head references line := by
  rcases awaits with rfl | rfl
  · have noDex : dexLine.first? line = none := by simpa [takes, accepts] using notTaken
    rw [Oatdump.stepInMethod, noDex]
  · rfl

theorem Position.AwaitsCode.leave (awaits : position.AwaitsCode head references) :
    Oatdump.leave architecture parent position = .ok parent := by
  rcases awaits with rfl | rfl <;> rfl

theorem stepBeforeCode_of_marksCode (noMark : marksCode line = false) :
    stepBeforeCode head references line = .ok (.beforeCode head references) :=
  if_neg (ne_true_of_eq_false noMark)

theorem reading_gap {gap : List Text} (awaits : position.AwaitsCode head references)
    (others : ∀ line ∈ gap, isBoundary line = false ∧ marksCode line = false)
    (first : ∀ line ∈ gap.head?, position.takes line = false) :
    ∃ final, machine.Reading (.inClass architecture parent position) gap []
        (.inClass architecture parent final) ∧ final.AwaitsCode head references := by
  cases gap with
  | nil => exact ⟨position, .done _, awaits⟩
  | cons line gap =>
      rcases List.forall_mem_cons.1 others with ⟨⟨noBoundary, noMark⟩, rest⟩
      have stepped : stepInMethod architecture line position =
          .ok (.beforeCode head references) := by
        rw [awaits.stepInMethod (first line rfl), stepBeforeCode_of_marksCode noMark]
      have readRest : machine.Reading (.inClass architecture parent (.beforeCode head references))
          gap [] (.inClass architecture parent (.beforeCode head references)) := by
        apply reading_passed
        intro other member
        exact ⟨(rest other member).1, stepBeforeCode_of_marksCode (rest other member).2⟩
      exact ⟨_, (reading_one noBoundary stepped).append readRest, .inr rfl⟩

/-! ### Methods -/

theorem NativePart.IsPrinted.reading {part : NativePart} (printed : part.IsPrinted architecture)
    (fits : ∀ number ∈ part.numbers architecture, number < wordLimit)
    (single : ∀ line ∈ part.lines architecture, line.SingleLine)
    (awaits : position.AwaitsCode head references) :
    ∃ final, machine.Reading (.inClass architecture parent position) (part.lines architecture) []
        (.inClass architecture parent final) ∧
      settle architecture final = .ok (.inCode ⟨head, some part.size.decimalValue, references,
        part.groups.map (CodeGroup.instruction architecture)⟩) := by
  rcases List.forall_mem_cons.1 fits with ⟨smallSize, fitsGroups⟩
  rcases List.forall_mem_cons.1 single with ⟨-, below⟩
  rcases List.forall_mem_append.1 below with ⟨-, singleGroups⟩
  let opened : OpenMethod := ⟨head, some part.size.decimalValue, references, []⟩
  have notTaken : position.takes part.mark = false := by
    rcases awaits with rfl | rfl
    · exact dexLine_of_marksCode printed.mark
    · rfl
  have size : number decimal? .thisLine part.size = .ok part.size.decimalValue :=
    number_eq_ok_iff.2 (isDecimal_of_isRun printed.size smallSize).decimal?
  have readMark : machine.Reading (.inClass architecture parent position) [part.mark] []
      (.inClass architecture parent (.inCode opened)) := by
    apply reading_one
    · exact isBoundary_of_startsWith rfl (by decide) printed.mark
    · have isMark : startsWith (trim part.mark) "CODE:" = true := printed.mark
      rw [awaits.stepInMethod notTaken, stepBeforeCode, if_pos isMark, printed.first?_sizeMark]
      simp only [size]
      rfl
  have isOpen : settle architecture (.inCode opened) = .ok (.inCode opened) := rfl
  rcases reading_groups printed.groups fitsGroups singleGroups isOpen parent with
    ⟨final, readGroups, settled⟩
  exact ⟨final, readMark.append ((reading_inCode printed.before).append readGroups), settled⟩

def OpenClass.adding (parent : OpenClass) (methods : List Method) : OpenClass :=
  { parent with methods := parent.methods ++ methods }

theorem Body.IsPrinted.reading {body : Body} (printed : body.IsPrinted architecture)
    (fits : ∀ number ∈ body.numbers architecture, number < wordLimit)
    (single : ∀ line ∈ body.lines architecture, line.SingleLine) (head : MethodHead)
    (parent : OpenClass) :
    ∃ final, machine.Reading (.inClass architecture parent (.beforeEcho head))
        (body.lines architecture) [] (.inClass architecture parent final) ∧
      leave architecture parent final =
        .ok (parent.adding (body.method? architecture head).toList) := by
  rcases List.forall_mem_append.1 fits with ⟨fitsEcho, fitsNative⟩
  rcases List.forall_mem_cons.1 single with ⟨-, below⟩
  rcases List.forall_mem_append.1 below with ⟨singleEcho, below⟩
  rcases List.forall_mem_append.1 below with ⟨-, singleNative⟩
  have isMark : startsWith (trim body.mark) "DEX CODE:" = true := printed.mark
  have readMark : machine.Reading (.inClass architecture parent (.beforeEcho head)) [body.mark] []
      (.inClass architecture parent (.inEcho head .empty)) := by
    apply reading_one
    · exact isBoundary_of_startsWith rfl (by decide) isMark
    · rw [stepInMethod, if_pos isMark]
  have readEcho : machine.Reading (.inClass architecture parent (.inEcho head .empty))
      (body.echo.map EchoLine.text) []
      (.inClass architecture parent (.inEcho head body.references)) :=
    reading_echo printed.echo (by simpa using fitsEcho) singleEcho .empty
  rcases reading_gap (.inl rfl) printed.gap printed.first with ⟨next, readGap, awaits⟩
  have readTop := readMark.append (readEcho.append readGap)
  rcases isNative : body.native with _ | part
  · refine ⟨next, ?_, ?_⟩
    · simpa [lines, isNative] using readTop
    · rw [awaits.leave]
      simp [method?, OpenClass.adding, isNative]
  · simp only [isNative, Option.toList_some, List.flatMap_singleton] at fitsNative singleNative
    rcases (printed.native part isNative).reading fitsNative singleNative awaits with
      ⟨final, readPart, settled⟩
    refine ⟨final, ?_, ?_⟩
    · simpa [lines, isNative] using readTop.append readPart
    · rw [leave_of_settle settled]
      simp [method?, OpenClass.adding, OpenClass.add, isNative]

/-- The line that opens a method ends the one before it. -/
theorem Member.IsPrinted.step_opening {member : Member} (printed : member.IsPrinted architecture)
    (small : member.index.decimalValue < wordLimit) (single : member.opening.SingleLine)
    {closed : OpenClass} (isLeft : leave architecture parent position = .ok closed) :
    machine.step (.inClass architecture parent position) member.opening =
      .ok ([], .inClass architecture closed (.beforeEcho member.head)) := by
  have noClass : classLine.first? member.opening = none := by
    by_contra opens
    rcases head?_of_classLine (Option.isSome_iff_ne_none.2 opens) with ⟨first, isFirst, isDigit⟩
    rcases printed.margin with ⟨nonempty, blank⟩
    rcases List.exists_cons_of_ne_nil nonempty with ⟨other, margin, isMargin⟩
    rw [opening, isMargin] at isFirst
    obtain rfl : other = first := Option.some.inj isFirst
    rw [isDecimalDigit_of_isBlank (blank other (by simp [isMargin]))] at isDigit
    cases isDigit
  have index : Dump.number decimal? .thisLine member.index = .ok member.index.decimalValue :=
    number_eq_ok_iff.2 (isDecimal_of_isRun printed.index small).decimal?
  rw [machine_step, step, noClass, printed.first?_methodLine single]
  simp only [isLeft, index]
  rfl

theorem Member.IsPrinted.reading {member : Member} (printed : member.IsPrinted architecture)
    (fits : ∀ number ∈ member.numbers architecture, number < wordLimit)
    (single : ∀ line ∈ member.lines architecture, line.SingleLine) {closed : OpenClass}
    (isLeft : leave architecture parent position = .ok closed) :
    ∃ final, machine.Reading (.inClass architecture parent position) (member.lines architecture) []
        (.inClass architecture closed final) ∧
      leave architecture closed final =
        .ok (closed.adding (member.method? architecture).toList) := by
  rcases List.forall_mem_cons.1 fits with ⟨smallIndex, fitsBody⟩
  rcases List.forall_mem_cons.1 single with ⟨singleOpening, below⟩
  rcases List.forall_mem_append.1 below with ⟨-, singleBody⟩
  have readOpening := Machine.Reading.one (printed.step_opening smallIndex singleOpening isLeft)
  have readBefore : machine.Reading (.inClass architecture closed (.beforeEcho member.head))
      member.before [] (.inClass architecture closed (.beforeEcho member.head)) := by
    apply reading_passed
    intro line member
    rcases printed.before line member with ⟨noBoundary, noMark⟩
    have noMark : ¬startsWith (trim line) "DEX CODE:" = true := ne_true_of_eq_false noMark
    exact ⟨noBoundary, by rw [stepInMethod, if_neg noMark]⟩
  rcases hasBody : member.body with _ | body
  · refine ⟨.beforeEcho member.head, ?_, ?_⟩
    · simpa [lines, hasBody] using readOpening.append readBefore
    · have isLeft : leave architecture closed (.beforeEcho member.head) = .ok closed := rfl
      rw [isLeft]
      simp [method?, OpenClass.adding, hasBody]
  · simp only [hasBody, Option.toList_some, List.flatMap_singleton] at fitsBody singleBody
    rcases (printed.body body hasBody).reading fitsBody singleBody member.head closed with
      ⟨final, readBody, isLeftBody⟩
    refine ⟨final, ?_, ?_⟩
    · simpa [lines, hasBody] using readOpening.append (readBefore.append readBody)
    · rw [isLeftBody, method?, hasBody]
      rfl

theorem reading_members {members : List Member}
    (printed : ∀ member ∈ members, member.IsPrinted architecture)
    (fits : ∀ number ∈ members.flatMap (Member.numbers architecture), number < wordLimit)
    (single : ∀ line ∈ members.flatMap (Member.lines architecture), line.SingleLine)
    {closed : OpenClass} (isLeft : leave architecture parent position = .ok closed) :
    ∃ last final, machine.Reading (.inClass architecture parent position)
        (members.flatMap (Member.lines architecture)) [] (.inClass architecture last final) ∧
      leave architecture last final =
        .ok (closed.adding (members.filterMap (Member.method? architecture))) := by
  induction members generalizing parent position closed with
  | nil => exact ⟨parent, position, .done _, by simpa [OpenClass.adding] using isLeft⟩
  | cons member members ih =>
      rcases List.forall_mem_cons.1 printed with ⟨isPrinted, printedOthers⟩
      rw [List.flatMap_cons] at fits single
      rcases List.forall_mem_append.1 fits with ⟨fitsHere, fitsOthers⟩
      rcases List.forall_mem_append.1 single with ⟨singleHere, singleOthers⟩
      rcases isPrinted.reading fitsHere singleHere isLeft with ⟨between, readMember, isLeftMember⟩
      rcases ih printedOthers fitsOthers singleOthers isLeftMember with
        ⟨last, final, readOthers, isLeftLast⟩
      refine ⟨last, final, readMember.append readOthers, ?_⟩
      rw [isLeftLast, List.filterMap_cons]
      cases member.method? architecture <;> simp [OpenClass.adding]

end methods

/-! ### Classes -/

section classes

variable {architecture : Architecture} {scope : Scope} {pending : List Class}

theorem Block.IsPrinted.reading {block : Block} (printed : block.IsPrinted architecture)
    (fits : ∀ number ∈ block.members.flatMap (Member.numbers architecture), number < wordLimit)
    (single : ∀ line ∈ block.lines architecture, line.SingleLine)
    (finished : finish scope = .ok pending) (known : scope.architecture? = some architecture) :
    ∃ final, machine.Reading scope (block.lines architecture) pending final ∧
      finish final = .ok (block.classes architecture) ∧
      final.architecture? = some architecture := by
  rcases List.forall_mem_cons.1 single with ⟨singleOpening, below⟩
  rcases List.forall_mem_append.1 below with ⟨-, singleMembers⟩
  rcases step_of_finish finished (printed.first?_classLine singleOpening) with
    ⟨other, known', stepped⟩
  obtain rfl : other = architecture := Option.some.inj (known'.symm.trans known)
  have readBefore : machine.Reading (openClass other block.path) block.before []
      (openClass other block.path) := by
    apply reading_passed
    intro line member
    exact ⟨printed.before line member, rfl⟩
  have isOpen : leave other ⟨block.name, []⟩ .betweenMethods = .ok ⟨block.name, []⟩ := rfl
  rcases reading_members printed.members fits singleMembers isOpen with
    ⟨last, final, readMembers, isLeft⟩
  refine ⟨.inClass other last final, ?_, ?_, rfl⟩
  · simpa [lines] using (Machine.Reading.one stepped).append (readBefore.append readMembers)
  · rw [finish, isLeft]
    rfl

theorem reading_blocks {blocks : List Block}
    (printed : ∀ block ∈ blocks, block.IsPrinted architecture)
    (fits : ∀ number ∈ blocks.flatMap fun block =>
      block.members.flatMap (Member.numbers architecture), number < wordLimit)
    (single : ∀ line ∈ blocks.flatMap (Block.lines architecture), line.SingleLine)
    (finished : finish scope = .ok pending) (known : scope.architecture? = some architecture) :
    ∃ completed final last, machine.Reading scope (blocks.flatMap (Block.lines architecture))
        completed final ∧ finish final = .ok last ∧
      completed ++ last = pending ++ blocks.flatMap (Block.classes architecture) := by
  -- a class is completed by the next one, so the last one is still pending at the end
  induction blocks generalizing scope pending with
  | nil => exact ⟨[], scope, pending, .done _, finished, by simp⟩
  | cons block blocks ih =>
      rcases List.forall_mem_cons.1 printed with ⟨isPrinted, printedOthers⟩
      rw [List.flatMap_cons] at fits single
      rcases List.forall_mem_append.1 fits with ⟨fitsHere, fitsOthers⟩
      rcases List.forall_mem_append.1 single with ⟨singleHere, singleOthers⟩
      rcases isPrinted.reading fitsHere singleHere finished known with
        ⟨between, readBlock, finishedBlock, knownBetween⟩
      rcases ih printedOthers fitsOthers singleOthers finishedBlock knownBetween with
        ⟨completed, final, last, readOthers, finishedLast, sameClasses⟩
      refine ⟨pending ++ completed, final, last, readBlock.append readOthers, finishedLast, ?_⟩
      rw [List.append_assoc, sameClasses, List.flatMap_cons]

end classes

theorem Architecture.ofName?_name (architecture : Architecture) :
    ofName? architecture.name = some architecture := by
  cases architecture <;> rfl

namespace Printout

variable {printout : Printout}

/-- The lines above the classes tell the architecture. -/
theorem IsPrinted.reading_top (printed : printout.IsPrinted) :
    machine.Reading machine.start
      (printout.preface ++ (printout.mark :: printout.nameLine :: printout.before)) []
      (.betweenClasses printout.architecture) := by
  have readPreface : machine.Reading machine.start printout.preface [] machine.start := by
    apply Machine.Reading.loop
    intro line member
    have noMark := ne_true_of_eq_false (printed.preface line member)
    show step .beforeMark line = _
    rw [step, if_neg noMark]
    rfl
  have readMark : machine.step machine.start printout.mark = .ok ([], .beforeName) := by
    show step .beforeMark printout.mark = _
    rw [step, if_pos printed.mark]
  have readName : machine.step .beforeName printout.nameLine =
      .ok ([], .betweenClasses printout.architecture) := by
    rw [machine_step, step, printed.nameLine, Architecture.ofName?_name]
  have readBefore : machine.Reading (.betweenClasses printout.architecture) printout.before []
      (.betweenClasses printout.architecture) := by
    apply Machine.Reading.loop
    intro line member
    have noClass : classLine.first? line = none := by
      simpa [accepts] using printed.before line member
    rw [machine_step, step, noClass]
  exact readPreface.append (.goOn readMark (.goOn readName readBefore))

end Printout

/-- What has been printed is read back, if its numbers are not too large. -/
theorem read_unlines_printout {printout : Printout} (printed : printout.IsPrinted)
    (fits : printout.FitsWords) : read (unlines printout.lines) = .ok printout.classes := by
  have single : ∀ line ∈ printout.blocks.flatMap (Block.lines printout.architecture),
      line.SingleLine := by
    intro line member
    exact (printed.lines line (by simp [Printout.lines, member])).1
  have noneOpen : finish (.betweenClasses printout.architecture) = .ok [] := rfl
  rcases reading_blocks printed.blocks fits single noneOpen rfl with
    ⟨completed, final, last, readBlocks, finished, sameClasses⟩
  refine Machine.read_eq_ok_iff.2 ⟨completed, final, last, ?_, finished, sameClasses.symm⟩
  rw [lines_unlines printed.lines]
  have whole := printed.reading_top.append readBlocks
  simpa [Printout.lines] using whole

/-- A class with a method without code, one with all kinds of lines of code, and one without native
code, and a built-in class. Of the calls one is inlined, one is not, and of one nothing is known. -/
def sailPrintout : Printout where
  preface := ["MAGIC:", "oat", ""]
  mark := "INSTRUCTION SET:"
  nameLine := "X86_64"
  architecture := .x86_64
  before := ["", "LOCATION:", "sail.oat", ""]
  blocks :=
    [{ number := "0"
       path := "demo/Sail"
       offset := "00000c08"
       typeIndex := "21"
       status := " (Initialized)"
       before := []
       members :=
        [{ margin := "  "
           number := "0"
           gap := " "
           declaration := "void demo.Sail.reef()"
           index := "7"
           before := ["    NO CODE!"]
           body := none },
         { margin := "  "
           number := "1"
           gap := " "
           declaration := "int demo.Sail.turn(int)"
           index := "8"
           before := []
           body := some
            { mark := "    DEX CODE:"
              echo :=
                [⟨"      ", "0000", " ", "7110 0900 0100 ", "\t",
                  .invoke ⟨"virtual \x7bv1, v2", " ", "int", " ", "demo.Sail.pull(int, int)",
                    " method@9"⟩⟩,
                 ⟨"      ", "0003", " ", "0f00 ", "\t", .other "return v0"⟩,
                 ⟨"      ", "0004", " ", "7010 0a00 ", "\t",
                  .invoke ⟨"static \x7b", " ", "void", " ", "demo.Sail.haul()", " method@10"⟩⟩]
              gap := ["    OatMethodOffsets", "      code_offset: 0x1030"]
              native := some
                { front := "    CODE: (offset=0x1030 "
                  size := "16"
                  back := ")..."
                  before := []
                  groups :=
                    [⟨⟨"      ", "00001030", " ", "85F6", "\t", .other "test esi, esi"⟩, none, []⟩,
                     ⟨⟨"      ", "00001032", " ", "7405", "\t",
                        .jump "jz/eq" '+' "5" "00001039"⟩, none, []⟩,
                     ⟨⟨"      ", "00001034", " ", "FF5720", "\t", .other "call [rdi + 32]"⟩,
                      some ⟨⟨"        ", "[0] (native_pc=0x1037, ", "0", " mask=0x0)"⟩,
                        none⟩, ["          v0: in r0"]⟩,
                     ⟨⟨"      ", "00001037", " ", "FFD0", "\t", .other "call rax"⟩,
                      some ⟨⟨"        ", "[1] (native_pc=0x1039, ", "4", " mask=0x0)"⟩,
                        some ⟨"          ", "[0] (depth=0, ", "2", " ", "10", ")"⟩⟩, []⟩,
                     ⟨⟨"      ", "00001039", " ", "FFD1", "\t", .other "call rcx"⟩, none, []⟩,
                     ⟨⟨"      ", "0000103b", " ", "C3", "\t", .other "ret"⟩, none,
                      ["        StackMap[2] (dex_pc=0x3, )"]⟩] } } },
         { margin := "  "
           number := "2"
           gap := " "
           declaration := "void demo.Sail.luff()"
           index := "9"
           before := []
           body := some
            { mark := "    DEX CODE:"
              echo := [⟨"      ", "0000", " ", "0e00 ", "\t", .other "return-void"⟩]
              gap := ["    NO CODE!"]
              native := none } }] },
     { number := "1"
       path := "kotlin/Unit"
       offset := "00000c40"
       typeIndex := "22"
       status := " (Initialized)"
       before := []
       members := [] }]

def sailClass : Class where
  header := "class demo.Sail"
  methods :=
    [{ header := "int demo.Sail.turn(int)"
       index := some 8
       codeSize := some 16
       isa := .x86_64
       instructions :=
        [Instruction.ofCode 0x1030 "0x00001030" "test esi, esi" none,
         Instruction.ofCode 0x1032 "0x00001032" "jz/eq +5 (0x00001039)" (some 0x1039),
         { Instruction.ofCode 0x1034 "0x00001034" "call [rdi + 32]" none with
            callAddress := some 0 },
         { Instruction.ofCode 0x1037 "0x00001037" "call rax" none with
            callAddress := some 2
            callMethod := some 10 },
         Instruction.ofCode 0x1039 "0x00001039" "call rcx" none,
         Instruction.ofCode 0x103b "0x0000103b" "ret" none]
       references := .ofList [(0, "demo.Sail.pull(int, int)"), (4, "demo.Sail.haul()")] }]

theorem read_unlines_sailPrintout :
    sailPrintout.IsPrinted ∧ sailPrintout.FitsWords ∧ sailPrintout.classes = [sailClass] ∧
      read (unlines sailPrintout.lines) = .ok [sailClass] := by
  have facts : sailPrintout.IsPrinted ∧ sailPrintout.FitsWords ∧
      sailPrintout.classes = [sailClass] := by
    -- The kernel is slow at taking strings apart, so that is done before.
    unfold sailPrintout sailClass
    repeat rewrite [String.toList_ofList]
    decide
  rcases facts with ⟨printed, fits, classes⟩
  refine ⟨printed, fits, classes, ?_⟩
  rw [← classes]
  exact read_unlines_printout printed fits

/-- A dump with a jump to an address of thirty-three bits. -/
def farPrintout : Printout where
  preface := []
  mark := "INSTRUCTION SET:"
  nameLine := "Arm64"
  architecture := .arm64
  before := []
  blocks :=
    [{ number := "0"
       path := "Far"
       offset := "1"
       typeIndex := "1"
       status := " -"
       before := []
       members :=
        [{ margin := " "
           number := "0"
           gap := " "
           declaration := "void f()"
           index := "7"
           before := []
           body := some
            { mark := " DEX CODE:"
              echo := []
              gap := []
              native := some
                { front := " CODE: ("
                  size := "4"
                  back := ")"
                  before := []
                  groups :=
                    [⟨⟨" ", "fffffffc", " ", "14000001", " ", .jump "b" '+' "4" "100000000"⟩,
                      none, []⟩] } } }] }]

/-- Not every dump that is printed is read back. -/
theorem not_forall_read_unlines_printout :
    ¬∀ printout : Printout, printout.IsPrinted →
      read (unlines printout.lines) = .ok printout.classes := by
  intro all
  have same := all farPrintout (by decide +kernel)
  revert same
  decide +kernel

end CompiledViews.Dump.Oatdump
