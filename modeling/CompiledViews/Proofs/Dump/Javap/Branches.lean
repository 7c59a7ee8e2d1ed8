import CompiledViews.Proofs.Dump.Javap.Printed
import CompiledViews.Proofs.Dump.OneLine

/-!
# Where the branches of a `javap` dump lead

The reader asks twice whether an instruction is a branch. Its mnemonic decides whether it is counted
as one, for which the first letters are enough. Whether it leads somewhere is decided by the form of
its code, and there the mnemonic has to be the one of a jump to its last letter. The second question
is the narrower one: what leads somewhere is a branch, but of the branches only those lead somewhere
whose mnemonic is spelled like that. `goto_w` is not.

An instruction keeps what its own line says about it until the class is complete, since later lines
change the operands of a switch and the source lines only. So it is enough to look at one line.
-/

namespace CompiledViews.Dump.Javap

open Text Text.Form

/-! ### Mnemonics of jumps -/

/-- A character of what a conditional jump asks for. -/
def isConditionPart (character : Char) : Bool := character == '_' || character.isLower

/-- Whether a mnemonic is one that the code of a jump begins with: `goto`, or `if` with a condition
behind it. -/
def isJumpMnemonic (op : Text) : Bool :=
  op == "goto".toList || (after? "if" op).any fun condition => condition.all isConditionPart

theorem isJumpMnemonic_iff {op : Text} : isJumpMnemonic op = true ↔
    op = "goto" ∨ ∃ condition : Text, op = "if" ++ condition ∧
      ∀ character ∈ condition, isConditionPart character = true := by
  simp only [isJumpMnemonic, Bool.or_eq_true, beq_iff_eq, Option.any_eq_true, after?_eq_some_iff,
    List.all_eq_true]

theorem isBranch_of_isJumpMnemonic {op : Text} (isJump : isJumpMnemonic op = true) :
    Isa.byteCode.isBranch op = true := by
  rcases isJumpMnemonic_iff.1 isJump with rfl | ⟨condition, rfl, -⟩
  · decide
  · simp [Isa.isBranch, startsWith]

theorem space_notMem_of_isJumpMnemonic {op : Text} (isJump : isJumpMnemonic op = true) :
    ' ' ∉ op := by
  rcases isJumpMnemonic_iff.1 isJump with rfl | ⟨condition, rfl, members⟩
  · decide
  · intro inOp
    rcases List.mem_append.1 inOp with inKeyword | inCondition
    · revert inKeyword
      decide
    · have isPart := members ' ' inCondition
      revert isPart
      decide

theorem exists_of_mem_mnemonic {code rest : Text}
    (member : ((), rest) ∈ either (literal "goto")
      (literal "if" >>= fun _ => span isConditionPart >>= fun _ => pure ()) code) :
    ∃ op, isJumpMnemonic op = true ∧ code = op ++ rest := by
  rcases List.mem_append.1 member with readGoto | readIf
  · exact ⟨"goto".toList, by decide, mem_literal readGoto⟩
  · obtain ⟨⟨_, afterIf⟩, readIf, later⟩ := List.mem_flatMap.1 readIf
    obtain ⟨⟨condition, afterCondition⟩, readCondition, isDone⟩ := List.mem_flatMap.1 later
    obtain ⟨-, rfl⟩ := Prod.mk.inj (List.mem_singleton.1 isDone)
    refine ⟨"if" ++ condition, ?_, ?_⟩
    · exact isJumpMnemonic_iff.2 (.inr ⟨condition, rfl, of_mem_span readCondition⟩)
    · rw [mem_literal readIf, mem_span readCondition, List.append_assoc]

/-- The code of a jump is a mnemonic of one, at least one space, and digits. -/
theorem exists_of_jumpCode {code address : Text} (found : jumpCode.first? code = some address) :
    ∃ op count, isJumpMnemonic op = true ∧ code = op ++ (spaces (count + 1) ++ address) ∧
      address.IsRun isDecimalDigit := by
  obtain ⟨⟨_, _⟩, atHead, rfl⟩ := Option.map_eq_some_iff.1 found
  obtain ⟨⟨_, afterOp⟩, readOp, later⟩ := List.mem_flatMap.1 (List.mem_of_head? atHead)
  obtain ⟨⟨blank, afterBlank⟩, readBlank, later⟩ := List.mem_flatMap.1 later
  obtain ⟨⟨digits, rest⟩, readDigits, later⟩ := List.mem_flatMap.1 later
  obtain ⟨⟨_, _⟩, isEnd, isDone⟩ := List.mem_flatMap.1 later
  obtain rfl := eq_nil_of_mem_atEnd isEnd
  obtain ⟨rfl, -⟩ := Prod.mk.inj (List.mem_singleton.1 isDone)
  obtain ⟨op, isJump, rfl⟩ := exists_of_mem_mnemonic readOp
  obtain ⟨count, rfl⟩ := (isRun_of_mem_span1 readBlank).exists_eq_spaces
  refine ⟨op, count, isJump, ?_, isRun_of_mem_span1 readDigits⟩
  rw [mem_span1 readBlank, mem_span1 readDigits, List.append_nil]

theorem first?_jumpCode {op address : Text} (isJump : isJumpMnemonic op = true)
    (digits : address.IsRun isDecimalDigit) (count : Nat) :
    jumpCode.first? (op ++ (spaces (count + 1) ++ address)) = some address := by
  have noSpace : ∀ head ∈ address.head?, (head == ' ') = false := by
    intro head isHead
    have isDigit := digits.2 head (List.mem_of_head? isHead)
    rw [beq_eq_false_iff_ne]
    rintro rfl
    revert isDigit
    decide
  have readSpaces : Prefers (span1 (· == ' ')) (spaces (count + 1) ++ address)
      (spaces (count + 1)) address :=
    .span1 (by simp [spaces]) (by simp [spaces]) noSpace
  have readDigits : Prefers Form.digits (address ++ []) address [] :=
    .span1 digits.1 digits.2 (by simp)
  rw [List.append_nil] at readDigits
  have readRest : Prefers (span1 (· == ' ') >>= fun _ => Form.digits >>= fun address =>
      atEnd >>= fun _ => pure address) (spaces (count + 1) ++ address) address [] :=
    readSpaces.bind (readDigits.bind (Prefers.atEnd.bind (.pure address [])))
  rcases isJumpMnemonic_iff.1 isJump with rfl | ⟨condition, rfl, members⟩
  · exact ((Prefers.either_left _ (.literal "goto" _)).bind readRest).first?
  · have ends : ∀ head ∈ (spaces (count + 1) ++ address).head?, isConditionPart head = false := by
      rintro head ⟨⟩
      decide
    have noGoto : literal ['g', 'o', 't', 'o']
        ("if" ++ condition ++ (spaces (count + 1) ++ address)) = [] := literal_eq_nil (by simp)
    have readCondition : Prefers (span isConditionPart >>= fun _ => pure ())
        (condition ++ (spaces (count + 1) ++ address)) () (spaces (count + 1) ++ address) :=
      (Prefers.span members ends).bind (.pure () _)
    have readIf : Prefers (literal "if" >>= fun _ => span isConditionPart >>= fun _ => pure ())
        ("if" ++ (condition ++ (spaces (count + 1) ++ address))) ()
        (spaces (count + 1) ++ address) :=
      (Prefers.literal "if" _).bind readCondition
    rw [← List.append_assoc] at readIf
    exact ((Prefers.either_right noGoto readIf).bind readRest).first?

/-! ### What a line says of its instruction -/

theorem splitCode_append {op : Text} (noSpace : ' ' ∉ op) (rest : Text) :
    Instruction.splitCode (op ++ ' ' :: rest) = (op, trim rest) := by
  induction op with
  | nil => rfl
  | cons head op ih =>
      rw [List.mem_cons, not_or] at noSpace
      rw [List.cons_append, Instruction.splitCode, ih noSpace.2]
      · rfl
      · intro isSpace
        exact noSpace.1 isSpace.symm

/-- The code of a jump is split into its mnemonic and its digits. -/
theorem splitCode_of_isJumpMnemonic {op address : Text} (isJump : isJumpMnemonic op = true)
    (digits : address.IsRun isDecimalDigit) (count : Nat) :
    Instruction.splitCode (op ++ (spaces (count + 1) ++ address)) = (op, address) := by
  have blank : ∀ character ∈ spaces count, isBlank character = true := by
    intro character inSpaces
    rw [List.eq_of_mem_replicate inSpaces]
    decide
  have noBlank : ∀ digit ∈ address, isBlank digit = false :=
    fun digit inDigits => isBlank_of_isDecimalDigit digit (digits.2 digit inDigits)
  rw [spaces, List.replicate_succ, List.cons_append,
    splitCode_append (space_notMem_of_isJumpMnemonic isJump), ← spaces, trim_append blank noBlank]

theorem isSwitch_of_isJumpMnemonic {instruction : Instruction}
    (isJump : isJumpMnemonic instruction.op = true) : isSwitch instruction = false := by
  by_contra opens
  rw [Bool.not_eq_false, isSwitch, Bool.or_eq_true, beq_iff_eq, beq_iff_eq] at opens
  rcases opens with isTable | isLookup
  · rw [isTable] at isJump
    revert isJump
    decide
  · rw [isLookup] at isJump
    revert isJump
    decide

/-- Code says of an instruction what its mnemonic is, what its operands are unless they stand on
further lines, and where it leads. -/
structure SaysOf (code : Text) (instruction : Instruction) : Prop where
  op : instruction.op = (Instruction.splitCode code).1
  operands : isSwitch instruction = false →
    instruction.operands = (Instruction.splitCode code).2
  target : Option.Rel (fun jump value => decimal? jump = some value) (jumpCode.first? code)
    instruction.jumpAddress

/-- Code in which the mnemonic of a jump, some spaces and a decimal number are the mnemonic and the
operands of an instruction. -/
structure IsPlainJump (code : Text) (instruction : Instruction) : Prop where
  mnemonic : isJumpMnemonic instruction.op = true
  spaced : ∃ count, code = instruction.op ++ (spaces (count + 1) ++ instruction.operands)
  number : instruction.operands.IsRun Char.isDigit

theorem saysOf_of_readInstruction {address code : Text} {instruction : Instruction}
    (read : readInstruction address code = .ok instruction) : SaysOf code instruction := by
  rcases bind_eq_ok_iff.1 read with ⟨start, -, read⟩
  dsimp only at read
  split at read
  case h_1 jump isJump =>
    obtain ⟨target, isTarget, read⟩ := bind_eq_ok_iff.1 read
    obtain ⟨value, isValue, rfl⟩ := map_eq_ok_iff.1 isTarget
    obtain rfl := Except.ok.inj read
    exact ⟨rfl, fun _ => rfl, isJump ▸ .some (number_eq_ok_iff.1 isValue)⟩
  case h_2 noJump =>
    obtain ⟨target, isTarget, read⟩ := bind_eq_ok_iff.1 read
    obtain rfl := Except.ok.inj isTarget
    obtain rfl := Except.ok.inj read
    exact ⟨rfl, fun _ => rfl, noJump ▸ .none⟩

namespace SaysOf

variable {code : Text} {instruction : Instruction}

/-- The operands of a switch come from other lines. -/
theorem setOperands (told : SaysOf code instruction) (opens : isSwitch instruction = true)
    (operands : Text) : SaysOf code { instruction with operands } where
  op := told.op
  operands noSwitch := by
    have same : isSwitch { instruction with operands } = isSwitch instruction := rfl
    rw [same, opens] at noSwitch
    cases noSwitch
  target := told.target

theorem setLineNumber (told : SaysOf code instruction) (lineNumber : Option Nat) :
    SaysOf code { instruction with lineNumber } :=
  ⟨told.op, told.operands, told.target⟩

/-- Where an instruction leads is a decimal number behind the mnemonic of a jump, and this number is
all of its operands. -/
theorem isPlainJump (told : SaysOf code instruction) {target : Nat}
    (isTarget : instruction.jumpAddress = some target) :
    IsPlainJump code instruction ∧ instruction.operands.decimalValue = target := by
  obtain ⟨address, isJump, isValue⟩ : ∃ address, jumpCode.first? code = some address ∧
      decimal? address = some target := by
    have leads := told.target
    rw [isTarget] at leads
    generalize jumpCode.first? code = found at leads
    cases leads with
    | some isValue => exact ⟨_, rfl, isValue⟩
  obtain ⟨op, count, mnemonic, rfl, digits⟩ := exists_of_jumpCode isJump
  obtain ⟨isDecimal, spells⟩ := isDecimal_of_decimal? isValue (digits.notMem (by decide))
  have isSplit := splitCode_of_isJumpMnemonic mnemonic digits count
  have isOp : instruction.op = op := by rw [told.op, isSplit]
  subst isOp
  have isOperands : instruction.operands = address := by
    rw [told.operands (isSwitch_of_isJumpMnemonic mnemonic), isSplit]
  subst isOperands
  exact ⟨⟨mnemonic, ⟨count, rfl⟩, isDecimal.nonempty, isDecimal.digits⟩, spells⟩

/-- An instruction leads to an address if its code is that of a plain jump to it. -/
theorem jumpAddress_iff (told : SaysOf code instruction) (target : Nat) :
    instruction.jumpAddress = some target ↔
      IsPlainJump code instruction ∧ instruction.operands.decimalValue = target := by
  refine ⟨told.isPlainJump, ?_⟩
  rintro ⟨⟨mnemonic, ⟨count, isCode⟩, number⟩, rfl⟩
  have digits : instruction.operands.IsRun isDecimalDigit :=
    ⟨number.1, fun digit inText => isDecimalDigit_of_isDigit (number.2 digit inText)⟩
  have leads := told.target
  rw [isCode, first?_jumpCode mnemonic digits count] at leads
  generalize isFound : instruction.jumpAddress = found at leads
  cases leads with
  | some isValue => rw [(isDecimal_of_decimal? isValue (number.notMem (by decide))).2]

end SaysOf

/-! ### Every instruction has a line -/

/-- A line of the dump says of an instruction what it is. -/
def HasLine (lines : List Text) (instruction : Instruction) : Prop :=
  ∃ line ∈ lines, ∃ address code, instructionLine.first? (trim line) = some (address, code) ∧
    SaysOf code instruction

theorem HasLine.withLineNumbers {lines : List Text} {instructions : List Instruction}
    (haveLines : ∀ instruction ∈ instructions, HasLine lines instruction) (table : NatMap Nat) :
    ∀ instruction ∈ Instruction.withLineNumbers table instructions, HasLine lines instruction := by
  intro instruction member
  rcases List.mem_map.1 member with ⟨bare, isBare, rfl⟩
  rcases haveLines bare isBare with ⟨line, isLine, address, code, isCode, told⟩
  exact ⟨line, isLine, address, code, isCode, told.setLineNumber _⟩

theorem HasLine.setOperands {lines : List Text} {instruction : Instruction}
    (hasLine : HasLine lines instruction) (opens : isSwitch instruction = true) (operands : Text) :
    HasLine lines { instruction with operands } := by
  rcases hasLine with ⟨line, isLine, address, code, isCode, told⟩
  exact ⟨line, isLine, address, code, isCode, told.setOperands opens operands⟩

/-- A method is one for the Java virtual machine, and each of its instructions has a line. -/
structure MethodHasLines (lines : List Text) (method : Method) : Prop where
  isa : method.isa = .byteCode
  instructions : ∀ instruction ∈ method.instructions, HasLine lines instruction

/-- All instructions that the reader has kept so far have lines. -/
def Scope.HasLines (lines : List Text) : Scope → Prop
  | betweenClasses => True
  | inClass parent | afterHeader parent _ => ∀ method ∈ parent.methods, MethodHasLines lines method
  | inCode parent method | beforeTable parent method | inTable parent method _ =>
    (∀ method ∈ parent.methods, MethodHasLines lines method) ∧
      ∀ instruction ∈ method.instructions, HasLine lines instruction
  | inSwitch parent method switch _ =>
    (∀ method ∈ parent.methods, MethodHasLines lines method) ∧
      (∀ instruction ∈ method.instructions, HasLine lines instruction) ∧
      HasLine lines switch ∧ isSwitch switch = true

section step

variable {lines : List Text} {line : Text} {parent : OpenClass} {method : OpenMethod}

theorem hasLines_add (earlier : ∀ method ∈ parent.methods, MethodHasLines lines method)
    (own : ∀ instruction ∈ method.instructions, HasLine lines instruction) (table : NatMap Nat) :
    ∀ other ∈ (parent.add method table).methods, MethodHasLines lines other :=
  forall_mem_concat earlier ⟨rfl, HasLine.withLineNumbers own table⟩

theorem hasLines_stepInClass (earlier : ∀ method ∈ parent.methods, MethodHasLines lines method)
    (line : Text) :
    (∀ cls ∈ (stepInClass parent line).1, ∀ method ∈ cls.methods, MethodHasLines lines method) ∧
      (stepInClass parent line).2.HasLines lines := by
  unfold stepInClass
  split
  · refine ⟨?_, trivial⟩
    unfold OpenClass.complete
    split
    · simp
    · simpa using earlier
  · split
    · exact ⟨by simp, earlier⟩
    · exact ⟨by simp, earlier⟩

theorem hasLines_stepBeforeTable
    (earlier : ∀ method ∈ parent.methods, MethodHasLines lines method)
    (own : ∀ instruction ∈ method.instructions, HasLine lines instruction) (line : Text) :
    (∀ cls ∈ (stepBeforeTable parent method line).1, ∀ other ∈ cls.methods,
        MethodHasLines lines other) ∧
      (stepBeforeTable parent method line).2.HasLines lines := by
  unfold stepBeforeTable
  split
  · exact hasLines_stepInClass (hasLines_add earlier own .empty) line
  · split
    · exact ⟨by simp, earlier, own⟩
    · exact ⟨by simp, earlier, own⟩

/-- A line of the dump takes a scope in which all instructions have lines to another one. -/
theorem hasLines_step {scope next : Scope} {completed : List Class}
    (hasLines : scope.HasLines lines) (isLine : line ∈ lines)
    (stepped : step scope line = .ok (completed, next)) :
    (∀ cls ∈ completed, ∀ method ∈ cls.methods, MethodHasLines lines method) ∧
      next.HasLines lines := by
  cases scope with
  | betweenClasses =>
      rw [step] at stepped
      split at stepped
      · rcases Prod.mk.inj (Except.ok.inj stepped) with ⟨rfl, rfl⟩
        exact ⟨by simp, by simp [Scope.HasLines]⟩
      · rcases Prod.mk.inj (Except.ok.inj stepped) with ⟨rfl, rfl⟩
        exact ⟨by simp, trivial⟩
  | inClass parent =>
      rcases Prod.mk.inj (Except.ok.inj stepped) with ⟨rfl, rfl⟩
      exact hasLines_stepInClass hasLines line
  | afterHeader parent header =>
      rw [step] at stepped
      split at stepped
      · rcases Prod.mk.inj (Except.ok.inj stepped) with ⟨rfl, rfl⟩
        exact ⟨by simp, hasLines, by simp⟩
      · rcases Prod.mk.inj (Except.ok.inj stepped) with ⟨rfl, rfl⟩
        exact hasLines_stepInClass hasLines line
  | inCode parent method =>
      rcases hasLines with ⟨earlier, own⟩
      rw [step] at stepped
      split at stepped
      case h_1 _ =>
        rcases Prod.mk.inj (Except.ok.inj stepped) with ⟨rfl, rfl⟩
        exact hasLines_stepBeforeTable earlier own line
      case h_2 address code isCode =>
        rcases bind_eq_ok_iff.1 stepped with ⟨instruction, read, stepped⟩
        have hasLine : HasLine lines instruction :=
          ⟨line, isLine, address, code, isCode, saysOf_of_readInstruction read⟩
        split at stepped
        case isTrue opens =>
          rcases Prod.mk.inj (Except.ok.inj stepped) with ⟨rfl, rfl⟩
          exact ⟨by simp, earlier, own, hasLine, opens⟩
        case isFalse _ =>
          rcases Prod.mk.inj (Except.ok.inj stepped) with ⟨rfl, rfl⟩
          exact ⟨by simp, earlier, forall_mem_concat own hasLine⟩
  | inSwitch parent method switch cases =>
      rcases hasLines with ⟨earlier, own, hasLine, opens⟩
      rw [step] at stepped
      split at stepped
      · rcases Prod.mk.inj (Except.ok.inj stepped) with ⟨rfl, rfl⟩
        exact ⟨by simp, earlier, forall_mem_concat own (hasLine.setOperands opens _)⟩
      · rcases Prod.mk.inj (Except.ok.inj stepped) with ⟨rfl, rfl⟩
        exact ⟨by simp, earlier, own, hasLine, opens⟩
  | beforeTable parent method =>
      rcases Prod.mk.inj (Except.ok.inj stepped) with ⟨rfl, rfl⟩
      exact hasLines_stepBeforeTable hasLines.1 hasLines.2 line
  | inTable parent method table =>
      rcases hasLines with ⟨earlier, own⟩
      rw [step] at stepped
      split at stepped
      · rcases Prod.mk.inj (Except.ok.inj stepped) with ⟨rfl, rfl⟩
        exact hasLines_stepInClass (hasLines_add earlier own table) line
      · rcases bind_eq_ok_iff.1 stepped with ⟨value, _, stepped⟩
        rcases bind_eq_ok_iff.1 stepped with ⟨key, _, stepped⟩
        rcases Prod.mk.inj (Except.ok.inj stepped) with ⟨rfl, rfl⟩
        exact ⟨by simp, earlier, own⟩

end step

/-- Every instruction that is read has a line of the dump. -/
theorem hasLines_of_read {text : Text} {classes : List Class} (accepted : read text = .ok classes) :
    ∀ cls ∈ classes, ∀ method ∈ cls.methods, MethodHasLines (Text.lines text) method := by
  have maintains : machine.Maintains (· ∈ Text.lines text) (Scope.HasLines (Text.lines text))
      fun cls => ∀ method ∈ cls.methods, MethodHasLines (Text.lines text) method :=
    { start := trivial
      step := hasLines_step
      finish := fun {scope _} _ finished => by
        cases scope <;> simp_all [machine, finish] }
  exact maintains.read (fun _ isLine => isLine) accepted

end CompiledViews.Dump.Javap
