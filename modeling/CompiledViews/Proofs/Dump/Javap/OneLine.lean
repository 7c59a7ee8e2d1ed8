import CompiledViews.Dump.Javap
import CompiledViews.Proofs.Dump.OneLine
import CompiledViews.Proofs.Text.Form

/-!
# Texts of `javap` dumps stay in one line

Every text that the reader of `javap` dumps keeps is a part of a line of the dump, or joined from
such parts.
-/

namespace CompiledViews.Dump.Javap

open Text Text.Form

variable {line : Text}

theorem classLine_reads : Reads line classLine fun opening => PartOf line opening.1 :=
  .bind (.covering <| .bind (.upTo anyInLine " class ") fun _ _ => .bind (.one isNameStart)
      fun _ _ => .bind (.span1 isNamePart) fun _ _ => .done)
    fun _ isPart => .bind (.upTo anyInLine "\x7b") fun _ _ => .bind .atEnd fun _ _ =>
      .pure isPart.1

theorem declarationEnd_reads : Reads line declarationEnd fun _ => True :=
  (Reads.either (.literal ";") <| (Reads.literal " throws ").bind fun _ _ =>
    (Reads.somethingUpTo ";").bind fun _ _ => .done).bind fun _ _ => .atEnd

theorem memberLine_reads : Reads line memberLine (PartOf line) :=
  (Reads.literal "  ").bind fun _ _ =>
    (Reads.covering (.upTo anyInLine ")")).bind fun _ isPart =>
      declarationEnd_reads.bind fun _ _ => .pure isPart.1

theorem instructionLine_reads :
    Reads line instructionLine fun taken => PartOf line taken.1 ∧ PartOf line taken.2 :=
  (Reads.span1 isDecimalDigit).bind fun _ addressIsPart =>
    (Reads.literal ":").bind fun _ _ => (Reads.span1 (· == ' ')).bind fun _ _ =>
      (Reads.span anyInLine).bind fun _ codeIsPart =>
        Reads.atEnd.bind fun _ _ => .pure ⟨addressIsPart, codeIsPart⟩

theorem readInstruction_inOneLine {address code : Text} {instruction : Instruction}
    (addressSingle : address.SingleLine) (codeSingle : code.SingleLine)
    (found : readInstruction address code = .ok instruction) : instruction.InOneLine := by
  rcases bind_eq_ok_iff.1 found with ⟨start, _, found⟩
  suffices ∃ target, Instruction.ofCode start address code target = instruction by
    rcases this with ⟨target, rfl⟩
    exact .ofCode addressSingle codeSingle start target
  dsimp only at found
  split at found <;>
    obtain ⟨target, _, found⟩ := bind_eq_ok_iff.1 found <;>
    exact ⟨target, Except.ok.inj found⟩

/-- The texts of an open class are in one line each. -/
structure OpenClass.InOneLine (parent : OpenClass) : Prop where
  header : parent.header.SingleLine
  methods : ∀ method ∈ parent.methods, method.InOneLine

/-- The texts of an open method are in one line each. -/
structure OpenMethod.InOneLine (method : OpenMethod) : Prop where
  header : method.header.SingleLine
  instructions : ∀ instruction ∈ method.instructions, instruction.InOneLine

/-- The texts that the reader has kept so far are in one line each. -/
def Scope.InOneLine : Scope → Prop
  | betweenClasses => True
  | inClass parent => parent.InOneLine
  | afterHeader parent header => parent.InOneLine ∧ header.SingleLine
  | inCode parent method => parent.InOneLine ∧ method.InOneLine
  | inSwitch parent method switch cases =>
    parent.InOneLine ∧ method.InOneLine ∧ switch.InOneLine ∧
      ∀ switchCase ∈ cases, switchCase.SingleLine
  | beforeTable parent method => parent.InOneLine ∧ method.InOneLine
  | inTable parent method _ => parent.InOneLine ∧ method.InOneLine

theorem OpenClass.InOneLine.complete {parent : OpenClass} (inOneLine : parent.InOneLine) :
    ∀ cls ∈ parent.complete, cls.InOneLine := by
  unfold OpenClass.complete
  split
  · simp
  · simpa using ⟨inOneLine.header, inOneLine.methods⟩

theorem OpenClass.InOneLine.add {parent : OpenClass} {method : OpenMethod}
    (inOneLine : parent.InOneLine) (methodInOneLine : method.InOneLine) (table : NatMap Nat) :
    (parent.add method table).InOneLine where
  header := inOneLine.header
  methods := forall_mem_concat inOneLine.methods
    { header := methodInOneLine.header
      instructions := Instruction.InOneLine.withLineNumbers table methodInOneLine.instructions
      references := .empty }

theorem OpenMethod.InOneLine.add {method : OpenMethod} {instruction : Instruction}
    (inOneLine : method.InOneLine) (added : instruction.InOneLine) :
    (method.add instruction).InOneLine where
  header := inOneLine.header
  instructions := forall_mem_concat inOneLine.instructions added

theorem stepInClass_inOneLine {parent : OpenClass} (inOneLine : parent.InOneLine)
    (single : line.SingleLine) :
    (∀ cls ∈ (stepInClass parent line).1, cls.InOneLine) ∧
      (stepInClass parent line).2.InOneLine := by
  unfold stepInClass
  split
  · exact ⟨inOneLine.complete, trivial⟩
  · split
    case h_1 header found =>
      exact ⟨by simp, inOneLine, single.of_part (memberLine_reads.first? List.infix_rfl found)⟩
    case h_2 _ => exact ⟨by simp, inOneLine⟩

theorem stepBeforeTable_inOneLine {parent : OpenClass} {method : OpenMethod}
    (inOneLine : parent.InOneLine) (methodInOneLine : method.InOneLine)
    (single : line.SingleLine) :
    (∀ cls ∈ (stepBeforeTable parent method line).1, cls.InOneLine) ∧
      (stepBeforeTable parent method line).2.InOneLine := by
  unfold stepBeforeTable
  split
  · exact stepInClass_inOneLine (inOneLine.add methodInOneLine .empty) single
  · split
    · exact ⟨by simp, inOneLine, methodInOneLine⟩
    · exact ⟨by simp, inOneLine, methodInOneLine⟩

theorem switchOperands_singleLine {cases : List Text}
    (single : ∀ switchCase ∈ cases, switchCase.SingleLine) :
    (switchOperands cases).SingleLine := by
  simp only [switchOperands, SingleLine.append_iff]
  exact ⟨⟨by decide, SingleLine.join (by decide) single⟩, by decide⟩

/-- A line takes a scope whose texts are in one line each to another one, and completes only such
classes. -/
theorem step_inOneLine {scope next : Scope} {completed : List Class}
    (inOneLine : scope.InOneLine) (single : line.SingleLine)
    (stepped : step scope line = .ok (completed, next)) :
    (∀ cls ∈ completed, cls.InOneLine) ∧ next.InOneLine := by
  have trimSingle : (trim line).SingleLine := single.of_part (trim_isInfix line)
  cases scope with
  | betweenClasses =>
      rw [step] at stepped
      split at stepped
      case h_1 header name found =>
        obtain ⟨rfl, rfl⟩ := by simpa using stepped
        exact ⟨by simp, single.of_part (classLine_reads.first? List.infix_rfl found), by simp⟩
      case h_2 _ =>
        obtain ⟨rfl, rfl⟩ := by simpa using stepped
        exact ⟨by simp, trivial⟩
  | inClass parent =>
      rcases Prod.mk.inj (Except.ok.inj stepped) with ⟨rfl, rfl⟩
      exact stepInClass_inOneLine inOneLine single
  | afterHeader parent header =>
      rcases inOneLine with ⟨parentInOneLine, headerSingle⟩
      rw [step] at stepped
      split at stepped
      · obtain ⟨rfl, rfl⟩ := by simpa using stepped
        exact ⟨by simp, parentInOneLine, headerSingle, by simp⟩
      · rcases Prod.mk.inj (Except.ok.inj stepped) with ⟨rfl, rfl⟩
        exact stepInClass_inOneLine parentInOneLine single
  | inCode parent method =>
      rcases inOneLine with ⟨parentInOneLine, methodInOneLine⟩
      rw [step] at stepped
      split at stepped
      case h_1 _ =>
        rcases Prod.mk.inj (Except.ok.inj stepped) with ⟨rfl, rfl⟩
        exact stepBeforeTable_inOneLine parentInOneLine methodInOneLine single
      case h_2 address code found =>
        rcases bind_eq_ok_iff.1 stepped with ⟨instruction, read, stepped⟩
        have parts := instructionLine_reads.first? List.infix_rfl found
        have instructionInOneLine := readInstruction_inOneLine
          (trimSingle.of_part parts.1) (trimSingle.of_part parts.2) read
        split at stepped
        · rcases Prod.mk.inj (Except.ok.inj stepped) with ⟨rfl, rfl⟩
          exact ⟨by simp, parentInOneLine, methodInOneLine, instructionInOneLine, by simp⟩
        · rcases Prod.mk.inj (Except.ok.inj stepped) with ⟨rfl, rfl⟩
          exact ⟨by simp, parentInOneLine, methodInOneLine.add instructionInOneLine⟩
  | inSwitch parent method switch cases =>
      rcases inOneLine with ⟨parentInOneLine, methodInOneLine, switchInOneLine, casesSingle⟩
      rw [step] at stepped
      split at stepped
      · rcases Prod.mk.inj (Except.ok.inj stepped) with ⟨rfl, rfl⟩
        exact ⟨by simp, parentInOneLine, methodInOneLine.add
          ⟨switchInOneLine.label, switchInOneLine.op, switchOperands_singleLine casesSingle⟩⟩
      · rcases Prod.mk.inj (Except.ok.inj stepped) with ⟨rfl, rfl⟩
        exact ⟨by simp, parentInOneLine, methodInOneLine, switchInOneLine,
          forall_mem_concat casesSingle trimSingle⟩
  | beforeTable parent method =>
      rcases Prod.mk.inj (Except.ok.inj stepped) with ⟨rfl, rfl⟩
      exact stepBeforeTable_inOneLine inOneLine.1 inOneLine.2 single
  | inTable parent method table =>
      rcases inOneLine with ⟨parentInOneLine, methodInOneLine⟩
      rw [step] at stepped
      split at stepped
      case h_1 _ =>
        rcases Prod.mk.inj (Except.ok.inj stepped) with ⟨rfl, rfl⟩
        exact stepInClass_inOneLine (parentInOneLine.add methodInOneLine table) single
      case h_2 _ =>
        rcases bind_eq_ok_iff.1 stepped with ⟨value, _, stepped⟩
        rcases bind_eq_ok_iff.1 stepped with ⟨key, _, stepped⟩
        rcases Prod.mk.inj (Except.ok.inj stepped) with ⟨rfl, rfl⟩
        exact ⟨by simp, parentInOneLine, methodInOneLine⟩

/-- All texts of the classes of a `javap` dump are in one line each. -/
theorem read_inOneLine {text : Text} {classes : List Class} (accepted : read text = .ok classes) :
    ∀ cls ∈ classes, cls.InOneLine := by
  have maintains : machine.Maintains SingleLine Scope.InOneLine Class.InOneLine :=
    { start := trivial
      step := step_inOneLine
      finish := fun {scope _} _ finished => by
        cases scope <;> simp_all [machine, finish] }
  exact maintains.read (fun _ => SingleLine.of_mem_lines) accepted

end CompiledViews.Dump.Javap
