import CompiledViews.Dump.Oatdump
import CompiledViews.Proofs.Dump.OneLine
import CompiledViews.Proofs.Text.Form

/-!
# Texts of `oatdump` dumps stay in one line

Every text that the reader of `oatdump` dumps keeps is a part of a line of the dump, apart from the
marks that it puts in front.
-/

namespace CompiledViews.Dump.Oatdump

open Text Text.Form

variable {line : Text}

theorem beforeLastBlank?_isInfix {text before : Text}
    (found : beforeLastBlank? text = some before) : before <:+: text := by
  unfold beforeLastBlank? at found
  split at found
  · split at found
    · exact Option.some.inj found ▸ (List.dropLast_prefix text).isInfix
    · simp at found
  · simp at found

theorem given_beforeLastBlank?_reads {before : Text} (isPart : PartOf line before) :
    Reads line (given (beforeLastBlank? before)) (PartOf line) :=
  .given fun _ found => (beforeLastBlank?_isInfix found).trans isPart

theorem classLine_reads : Reads line classLine (PartOf line) :=
  (Reads.span1 _).bind fun _ _ => (Reads.literal _).bind fun _ _ =>
  (Reads.span1 _).bind fun _ nameIsPart => (Reads.literal _).bind fun _ _ =>
  (Reads.span1 _).bind fun _ _ => (Reads.literal _).bind fun _ _ =>
  (Reads.span1 _).bind fun _ _ => (Reads.literal _).bind fun _ _ =>
  (Reads.span1 _).bind fun _ _ => .pure nameIsPart

theorem methodLine_reads :
    Reads line methodLine fun taken => PartOf line taken.1 ∧ PartOf line taken.2 :=
  (Reads.span1 _).bind fun _ _ => (Reads.span1 _).bind fun _ _ =>
  (Reads.literal _).bind fun _ _ => (Reads.run1 _).bind fun _ _ =>
  (Reads.upTo _ _).bind fun _ beforeIsPart => (Reads.span1 _).bind fun _ indexIsPart =>
  (Reads.literal _).bind fun _ _ => Reads.atEnd.bind fun _ _ =>
  (given_beforeLastBlank?_reads beforeIsPart).bind fun _ headerIsPart =>
  .pure ⟨headerIsPart, indexIsPart⟩

theorem codeLine_reads :
    Reads line codeLine fun taken => PartOf line taken.1 ∧ PartOf line taken.2 :=
  (Reads.span1 _).bind fun _ _ => (Reads.literal _).bind fun _ _ =>
  (Reads.span1 _).bind fun _ addressIsPart => (Reads.literal _).bind fun _ _ =>
  (Reads.span1 _).bind fun _ _ => (Reads.span1 _).bind fun _ _ =>
  (Reads.run1 _).bind fun _ _ => (Reads.span1 _).bind fun _ codeIsPart =>
  .pure ⟨addressIsPart, codeIsPart⟩

theorem dexLine_reads :
    Reads line dexLine fun taken => PartOf line taken.1 ∧ PartOf line taken.2 :=
  (Reads.span1 _).bind fun _ _ => (Reads.literal _).bind fun _ _ =>
  (Reads.span1 _).bind fun _ addressIsPart => (Reads.literal _).bind fun _ _ =>
  (Reads.span1 _).bind fun _ _ => (Reads.one _).bind fun _ _ =>
  (Reads.span1 _).bind fun _ _ => (Reads.given fun _ _ => trivial).bind fun _ _ =>
  (Reads.literal _).bind fun _ _ => (Reads.run1 _).bind fun _ _ =>
  (Reads.span1 _).bind fun _ codeIsPart => .pure ⟨addressIsPart, codeIsPart⟩

theorem invocation_reads : Reads line invocation (PartOf line) :=
  (Reads.literal _).bind fun _ _ => (Reads.span1 _).bind fun _ _ =>
  (Reads.literal _).bind fun _ _ => (Reads.span1 _).bind fun _ _ =>
  (Reads.span1 _).bind fun _ _ => (Reads.run1 _).bind fun _ _ =>
  (Reads.upTo _ _).bind fun _ beforeIsPart => (Reads.span1 _).bind fun _ _ =>
  given_beforeLastBlank?_reads beforeIsPart

/-- The texts of an open class are in one line each. -/
structure OpenClass.InOneLine (parent : OpenClass) : Prop where
  name : parent.name.SingleLine
  methods : ∀ method ∈ parent.methods, method.InOneLine

/-- The texts of an open method are in one line each. -/
structure OpenMethod.InOneLine (method : OpenMethod) : Prop where
  header : method.head.header.SingleLine
  references : ReferencesInOneLine method.references
  instructions : ∀ instruction ∈ method.instructions, instruction.InOneLine

/-- The texts of an open call are in one line each. -/
structure OpenCall.InOneLine (call : OpenCall) : Prop where
  address : call.address.SingleLine
  code : call.code.SingleLine

/-- The texts that the reader has kept of the method at hand are in one line each. -/
def Position.InOneLine : Position → Prop
  | betweenMethods => True
  | beforeEcho head => head.header.SingleLine
  | inEcho head references | beforeCode head references =>
    head.header.SingleLine ∧ ReferencesInOneLine references
  | inCode method => method.InOneLine
  | afterCall method call | afterStackMap method call _ => method.InOneLine ∧ call.InOneLine

/-- The texts that the reader has kept so far are in one line each. -/
def Scope.InOneLine : Scope → Prop
  | beforeMark | beforeName | betweenClasses _ => True
  | inClass _ parent position => parent.InOneLine ∧ position.InOneLine

theorem OpenClass.InOneLine.complete {parent : OpenClass} (inOneLine : parent.InOneLine) :
    ∀ cls ∈ parent.complete, cls.InOneLine := by
  unfold OpenClass.complete
  split
  · simp
  · have header : SingleLine ("class " ++ parent.name) :=
      SingleLine.append_iff.2 ⟨by decide, inOneLine.name⟩
    simpa using ⟨header, inOneLine.methods⟩

theorem OpenClass.InOneLine.add {parent : OpenClass} {method : OpenMethod}
    (inOneLine : parent.InOneLine) (methodInOneLine : method.InOneLine)
    (architecture : Architecture) : (parent.add architecture method).InOneLine where
  name := inOneLine.name
  methods := forall_mem_concat inOneLine.methods
    ⟨methodInOneLine.header, methodInOneLine.instructions, methodInOneLine.references⟩

theorem OpenMethod.InOneLine.add {method : OpenMethod} {instruction : Instruction}
    (inOneLine : method.InOneLine) (added : instruction.InOneLine) :
    (method.add instruction).InOneLine where
  header := inOneLine.header
  references := inOneLine.references
  instructions := forall_mem_concat inOneLine.instructions added

theorem readInstruction_inOneLine {place : Place} {call : OpenCall} {jump : Option Text}
    {instruction : Instruction} (inOneLine : call.InOneLine)
    (found : readInstruction place call jump = .ok instruction) : instruction.InOneLine := by
  suffices ∃ address target,
      Instruction.ofCode address ("0x" ++ call.address) call.code target = instruction by
    rcases this with ⟨address, target, rfl⟩
    exact .ofCode (SingleLine.append_iff.2 ⟨by decide, inOneLine.address⟩) inOneLine.code
      address target
  unfold readInstruction at found
  dsimp only at found
  split at found <;>
    obtain ⟨target, _, found⟩ := bind_eq_ok_iff.1 found <;>
    obtain ⟨address, _, found⟩ := bind_eq_ok_iff.1 found <;>
    exact ⟨address, target, Except.ok.inj found⟩

theorem OpenMethod.InOneLine.addUnmapped {method added : OpenMethod} {call : OpenCall}
    {architecture : Architecture} (inOneLine : method.InOneLine) (callInOneLine : call.InOneLine)
    (isAdded : method.addUnmapped architecture call = .ok added) : added.InOneLine := by
  rcases bind_eq_ok_iff.1 isAdded with ⟨instruction, read, equal⟩
  rcases Except.ok.inj equal with rfl
  exact inOneLine.add (readInstruction_inOneLine callInOneLine read)

theorem OpenMethod.InOneLine.addMapped {method added : OpenMethod} {call : OpenCall}
    {callAddress : Nat} {callMethod : Option Nat} (inOneLine : method.InOneLine)
    (callInOneLine : call.InOneLine)
    (isAdded : method.addMapped call callAddress callMethod = .ok added) : added.InOneLine := by
  rcases bind_eq_ok_iff.1 isAdded with ⟨instruction, read, equal⟩
  rcases Except.ok.inj equal with rfl
  have instructionInOneLine := readInstruction_inOneLine callInOneLine read
  exact inOneLine.add ⟨instructionInOneLine.label, instructionInOneLine.op,
    instructionInOneLine.operands⟩

theorem settle_inOneLine {architecture : Architecture} {position settled : Position}
    (inOneLine : position.InOneLine) (isSettled : settle architecture position = .ok settled) :
    settled.InOneLine := by
  cases position with
  | afterCall method call =>
      rcases map_eq_ok_iff.1 isSettled with ⟨added, isAdded, rfl⟩
      exact inOneLine.1.addUnmapped inOneLine.2 isAdded
  | afterStackMap method call callAddress =>
      rcases map_eq_ok_iff.1 isSettled with ⟨added, isAdded, rfl⟩
      exact inOneLine.1.addMapped inOneLine.2 isAdded
  | _ => exact Except.ok.inj isSettled ▸ inOneLine

theorem leave_inOneLine {architecture : Architecture} {parent closed : OpenClass}
    {position : Position} (inOneLine : parent.InOneLine) (positionInOneLine : position.InOneLine)
    (left : leave architecture parent position = .ok closed) : closed.InOneLine := by
  rcases bind_eq_ok_iff.1 left with ⟨settled, isSettled, left⟩
  have settledInOneLine := settle_inOneLine positionInOneLine isSettled
  split at left
  · exact Except.ok.inj left ▸ inOneLine.add settledInOneLine architecture
  · exact Except.ok.inj left ▸ inOneLine

theorem stepInCode_inOneLine {architecture : Architecture} {method : OpenMethod}
    {next : Position} (inOneLine : method.InOneLine) (single : line.SingleLine)
    (stepped : stepInCode architecture method line = .ok next) : next.InOneLine := by
  rw [stepInCode] at stepped
  split at stepped
  case h_1 _ => exact Except.ok.inj stepped ▸ inOneLine
  case h_2 address code found =>
    have parts := codeLine_reads.first? List.infix_rfl found
    have callInOneLine : OpenCall.InOneLine ⟨address, code⟩ :=
      ⟨single.of_part parts.1, single.of_part parts.2⟩
    split at stepped
    · exact Except.ok.inj stepped ▸ ⟨inOneLine, callInOneLine⟩
    · rcases bind_eq_ok_iff.1 stepped with ⟨instruction, read, equal⟩
      exact Except.ok.inj equal ▸ inOneLine.add (readInstruction_inOneLine callInOneLine read)

theorem stepBeforeCode_inOneLine {head : MethodHead} {references : NatMap Text} {next : Position}
    (headerSingle : head.header.SingleLine) (inOneLine : ReferencesInOneLine references)
    (stepped : stepBeforeCode head references line = .ok next) : next.InOneLine := by
  rw [stepBeforeCode] at stepped
  split at stepped
  · split at stepped
    · exact Except.ok.inj stepped ▸ ⟨headerSingle, inOneLine, by simp⟩
    · rcases bind_eq_ok_iff.1 stepped with ⟨codeSize, _, equal⟩
      exact Except.ok.inj equal ▸ ⟨headerSingle, inOneLine, by simp⟩
  · exact Except.ok.inj stepped ▸ ⟨headerSingle, inOneLine⟩

theorem stepInMethod_inOneLine {architecture : Architecture} {position next : Position}
    (inOneLine : position.InOneLine) (single : line.SingleLine)
    (stepped : stepInMethod architecture line position = .ok next) : next.InOneLine := by
  cases position with
  | betweenMethods => exact Except.ok.inj stepped ▸ trivial
  | beforeEcho head =>
      rcases Except.ok.inj stepped with rfl
      split
      · exact ⟨inOneLine, .empty⟩
      · exact inOneLine
  | inEcho head references =>
      rw [stepInMethod] at stepped
      split at stepped
      case h_1 _ => exact stepBeforeCode_inOneLine inOneLine.1 inOneLine.2 stepped
      case h_2 address code found =>
        have codeSingle := single.of_part (dexLine_reads.first? List.infix_rfl found).2
        split at stepped
        case h_1 _ => exact Except.ok.inj stepped ▸ inOneLine
        case h_2 name invoked =>
          rcases bind_eq_ok_iff.1 stepped with ⟨key, _, equal⟩
          have nameSingle := codeSingle.of_part (invocation_reads.first? List.infix_rfl invoked)
          exact Except.ok.inj equal ▸ ⟨inOneLine.1, inOneLine.2.insert nameSingle key⟩
  | beforeCode head references =>
      exact stepBeforeCode_inOneLine inOneLine.1 inOneLine.2 stepped
  | inCode method => exact stepInCode_inOneLine inOneLine single stepped
  | afterCall method call =>
      rw [stepInMethod] at stepped
      split at stepped
      · rcases bind_eq_ok_iff.1 stepped with ⟨callAddress, _, equal⟩
        exact Except.ok.inj equal ▸ inOneLine
      · rcases bind_eq_ok_iff.1 stepped with ⟨added, isAdded, stepped⟩
        exact stepInCode_inOneLine (inOneLine.1.addUnmapped inOneLine.2 isAdded) single stepped
  | afterStackMap method call callAddress =>
      rw [stepInMethod] at stepped
      split at stepped
      · rcases bind_eq_ok_iff.1 stepped with ⟨inlinedAddress, _, stepped⟩
        rcases bind_eq_ok_iff.1 stepped with ⟨inlinedMethod, _, stepped⟩
        rcases map_eq_ok_iff.1 stepped with ⟨added, isAdded, rfl⟩
        exact inOneLine.1.addMapped inOneLine.2 isAdded
      · rcases bind_eq_ok_iff.1 stepped with ⟨added, isAdded, stepped⟩
        exact stepInCode_inOneLine (inOneLine.1.addMapped inOneLine.2 isAdded) single stepped

theorem openClass_inOneLine (architecture : Architecture) {name : Text}
    (single : name.SingleLine) : (openClass architecture name).InOneLine :=
  ⟨⟨single.replaceChar (by decide), by simp⟩, trivial⟩

/-- A line takes a scope whose texts are in one line each to another one, and completes only such
classes. -/
theorem step_inOneLine {scope next : Scope} {completed : List Class}
    (inOneLine : scope.InOneLine) (single : line.SingleLine)
    (stepped : step scope line = .ok (completed, next)) :
    (∀ cls ∈ completed, cls.InOneLine) ∧ next.InOneLine := by
  cases scope with
  | beforeMark =>
      rcases Prod.mk.inj (Except.ok.inj stepped) with ⟨rfl, rfl⟩
      exact ⟨by simp, by split <;> trivial⟩
  | beforeName =>
      rw [step] at stepped
      split at stepped
      · rcases Prod.mk.inj (Except.ok.inj stepped) with ⟨rfl, rfl⟩
        exact ⟨by simp, trivial⟩
      · simp at stepped
  | betweenClasses architecture =>
      rw [step] at stepped
      split at stepped
      case h_1 name found =>
        rcases Prod.mk.inj (Except.ok.inj stepped) with ⟨rfl, rfl⟩
        exact ⟨by simp, openClass_inOneLine architecture
          (single.of_part (classLine_reads.first? List.infix_rfl found))⟩
      case h_2 _ =>
        rcases Prod.mk.inj (Except.ok.inj stepped) with ⟨rfl, rfl⟩
        exact ⟨by simp, trivial⟩
  | inClass architecture parent position =>
      rcases inOneLine with ⟨parentInOneLine, positionInOneLine⟩
      rw [step] at stepped
      split at stepped
      case h_1 name found =>
        rcases bind_eq_ok_iff.1 stepped with ⟨closed, left, stepped⟩
        rcases Prod.mk.inj (Except.ok.inj stepped) with ⟨rfl, rfl⟩
        have closedInOneLine := leave_inOneLine parentInOneLine positionInOneLine left
        exact ⟨closedInOneLine.complete, openClass_inOneLine architecture
          (single.of_part (classLine_reads.first? List.infix_rfl found))⟩
      case h_2 _ =>
        split at stepped
        case h_1 header indexText found =>
          rcases bind_eq_ok_iff.1 stepped with ⟨closed, left, stepped⟩
          rcases bind_eq_ok_iff.1 stepped with ⟨index, _, stepped⟩
          rcases Prod.mk.inj (Except.ok.inj stepped) with ⟨rfl, rfl⟩
          exact ⟨by simp, leave_inOneLine parentInOneLine positionInOneLine left,
            single.of_part (methodLine_reads.first? List.infix_rfl found).1⟩
        case h_2 _ =>
          rcases bind_eq_ok_iff.1 stepped with ⟨moved, movedTo, stepped⟩
          rcases Prod.mk.inj (Except.ok.inj stepped) with ⟨rfl, rfl⟩
          exact ⟨by simp, parentInOneLine,
            stepInMethod_inOneLine positionInOneLine single movedTo⟩

/-- All texts of the classes of an `oatdump` dump are in one line each. -/
theorem read_inOneLine {text : Text} {classes : List Class} (accepted : read text = .ok classes) :
    ∀ cls ∈ classes, cls.InOneLine := by
  have maintains : machine.Maintains SingleLine Scope.InOneLine Class.InOneLine :=
    { start := trivial
      step := step_inOneLine
      finish := fun {scope classes} inOneLine finished => by
        cases scope with
        | inClass architecture parent position =>
            rcases bind_eq_ok_iff.1 finished with ⟨closed, left, equal⟩
            have closedInOneLine := leave_inOneLine inOneLine.1 inOneLine.2 left
            exact Except.ok.inj equal ▸ closedInOneLine.complete
        | _ => simp_all [machine, finish] }
  exact maintains.read (fun _ => SingleLine.of_mem_lines) accepted

end CompiledViews.Dump.Oatdump
