import CompiledViews.Dump.Dexdump
import CompiledViews.Proofs.Dump.OneLine

/-!
# Texts of `dexdump` dumps stay in one line

The reader of `dexdump` dumps keeps parts of lines, and types decoded from parts of lines.
-/

namespace CompiledViews.Dump

open Text

namespace Descriptor

theorem primitive?_singleLine {letter : Char} {name : Text}
    (found : primitive? letter = some name) : name.SingleLine := by
  unfold primitive? at found
  split at found <;> simp only [Option.some.injEq, reduceCtorEq] at found <;> subst found <;> decide

theorem arraySuffix_singleLine (dimensions : Nat) : (arraySuffix dimensions).SingleLine := by
  induction dimensions with
  | zero => exact .nil
  | succ dimensions ih => exact SingleLine.append_iff.2 ⟨by decide, ih⟩

theorem unknownType_singleLine : unknownType.SingleLine := by decide

theorem className_singleLine {name : Text} (single : name.SingleLine) :
    (className name).SingleLine :=
  (single.replaceChar (by decide)).removeAllFrom _ 0

/-- Decoding an element of a text in one line gives types in one line, and leaves an end of it. -/
theorem decodeElement_singleLine (dimensions : Nat) {text : Text} (single : text.SingleLine) :
    (∀ type ∈ (decodeElement dimensions text).1, type.SingleLine) ∧
      (decodeElement dimensions text).2 <:+ text := by
  have suffixSingle := arraySuffix_singleLine dimensions
  unfold decodeElement
  split
  · simp [suffixSingle, unknownType_singleLine]
  · next rest =>
    have nameSingle : SingleLine (rest.takeWhile (· != ';')) :=
      single.of_part (List.infix_cons (List.takeWhile_prefix _).isInfix)
    refine ⟨by simp [suffixSingle, className_singleLine nameSingle], ?_⟩
    exact (List.drop_suffix ..).trans ((List.dropWhile_suffix _).trans (List.suffix_cons ..))
  · split
    case h_1 name found =>
      exact ⟨by simp [suffixSingle, primitive?_singleLine found], List.suffix_cons ..⟩
    case h_2 _ =>
      refine ⟨fun type member => ?_, List.suffix_cons ..⟩
      rcases List.mem_cons.1 member with rfl | isUnknown
      · simp [suffixSingle, unknownType_singleLine]
      · exact (List.mem_replicate.1 isUnknown).2 ▸ unknownType_singleLine

theorem decodeType_singleLine {text : Text} (single : text.SingleLine) :
    (∀ type ∈ (decodeType text).1, type.SingleLine) ∧ (decodeType text).2 <:+ text := by
  have dropped : text.dropWhile (· == '[') <:+ text := List.dropWhile_suffix _
  have element := decodeElement_singleLine (text.takeWhile (· == '[')).length
    (single.of_part dropped.isInfix)
  exact ⟨element.1, element.2.trans dropped⟩

theorem decodeTypes_singleLine {text : Text} (single : text.SingleLine) :
    ∀ type ∈ decodeTypes text, type.SingleLine := by
  fun_induction decodeTypes text with
  | case1 => simp
  | case2 first rest ih =>
      rcases decodeType_singleLine single with ⟨firstSingle, isSuffix⟩
      intro type member
      rcases List.mem_append.1 member with inFirst | inOthers
      · exact firstSingle type inFirst
      · exact ih (single.of_part isSuffix.isInfix) type inOthers

/-- The types that a descriptor in one line gives are in one line each. -/
theorem decode_singleLine {descriptor result : Text} {parameters : List Text}
    (single : descriptor.SingleLine) (decoded : decode descriptor = some (result, parameters)) :
    result.SingleLine ∧ ∀ parameter ∈ parameters, parameter.SingleLine := by
  rw [decode] at decoded
  split at decoded
  case h_1 _ => simp at decoded
  case h_2 before afterOpening opened =>
    have afterSingle := single.of_part (splitOnce_isInfix opened).2
    split at decoded
    case h_1 _ => simp at decoded
    case h_2 between afterClosing closed =>
      rw [splitLast_eq closed, SingleLine.append_iff] at afterSingle
      split at decoded
      case h_1 => simp at decoded
      case h_2 first rest =>
        rcases Option.map_eq_some_iff.1 decoded with ⟨name, isHead, equal⟩
        rcases Prod.mk.inj equal with ⟨rfl, rfl⟩
        have resultSingle := afterSingle.2.of_part (List.suffix_cons ..).isInfix
        exact ⟨(decodeType_singleLine resultSingle).1 _ (List.mem_of_head? isHead),
          decodeTypes_singleLine afterSingle.1⟩

end Descriptor

namespace Dexdump

variable {line : Text}

/-- The texts of an open class are in one line each. -/
structure OpenClass.InOneLine (parent : OpenClass) : Prop where
  name : parent.name.SingleLine
  methods : ∀ method ∈ parent.methods, method.InOneLine

/-- The texts of an open method are in one line each. -/
structure OpenMethod.InOneLine (method : OpenMethod) : Prop where
  name : method.name.SingleLine
  descriptor : method.descriptor.SingleLine
  instructions : ∀ instruction ∈ method.instructions, instruction.InOneLine

/-- The texts that the reader has kept so far are in one line each. -/
def Scope.InOneLine : Scope → Prop
  | betweenClasses | beforeDescriptor => True
  | inClass parent | beforeSignature parent _ => parent.InOneLine
  | inCode parent method | beforePositions parent method | inPositions parent method _ =>
    parent.InOneLine ∧ method.InOneLine

theorem OpenClass.InOneLine.complete {parent : OpenClass} (inOneLine : parent.InOneLine) :
    ∀ cls ∈ parent.complete, cls.InOneLine := by
  unfold OpenClass.complete
  split
  · simp
  · have header : SingleLine ("class " ++ parent.name) :=
      SingleLine.append_iff.2 ⟨by decide, inOneLine.name⟩
    simpa using ⟨header, inOneLine.methods⟩

theorem OpenClass.InOneLine.add {parent added : OpenClass} {method : OpenMethod}
    {table : NatMap Nat} (inOneLine : parent.InOneLine) (methodInOneLine : method.InOneLine)
    (isAdded : parent.add method table = .ok added) : added.InOneLine := by
  rw [OpenClass.add] at isAdded
  split at isAdded
  case h_1 _ => simp at isAdded
  case h_2 result parameters decoded =>
    rcases Except.ok.inj isAdded with rfl
    obtain ⟨resultSingle, parametersSingle⟩ :=
      Descriptor.decode_singleLine methodInOneLine.descriptor decoded
    refine ⟨inOneLine.name, forall_mem_concat inOneLine.methods ⟨?_,
      Instruction.InOneLine.withLineNumbers table methodInOneLine.instructions, .empty⟩⟩
    have parametersJoined : SingleLine (join ", " parameters) :=
      .join (by decide) parametersSingle
    simp only [SingleLine.append_iff]
    exact ⟨⟨⟨⟨⟨⟨⟨resultSingle, by decide⟩, inOneLine.name⟩, by decide⟩, methodInOneLine.name⟩,
      by decide⟩, parametersJoined⟩, by decide⟩

theorem OpenMethod.InOneLine.add {method : OpenMethod} {instruction : Instruction}
    (inOneLine : method.InOneLine) (added : instruction.InOneLine) :
    (method.add instruction).InOneLine where
  name := inOneLine.name
  descriptor := inOneLine.descriptor
  instructions := forall_mem_concat inOneLine.instructions added

theorem className?_singleLine {name : Text} (single : line.SingleLine)
    (found : className? line = some name) : name.SingleLine := by
  rw [className?] at found
  split at found
  · split at found
    case h_1 before descriptor after pieces =>
      rcases Option.some.inj found with rfl
      have isPart : descriptor <:+: line := infix_of_mem_splitAll (by rw [pieces]; simp)
      refine SingleLine.replaceChar ?_ (by decide)
      exact (single.of_part isPart).of_part
        ((dropRightWhile_isPrefix ..).isInfix.trans (getD_after?_isInfix ..))
    case h_2 _ => simp at found
  · simp at found

theorem readInstruction_inOneLine {instruction : Instruction} (single : line.SingleLine)
    (found : readInstruction line = .ok instruction) : instruction.InOneLine := by
  have codeSingle : SingleLine (((splitOnce "|" line).map (·.2)).getD line) := by
    cases split : splitOnce "|" line with
    | none => exact single
    | some parts => exact single.of_part (splitOnce_isInfix split).2
  rw [readInstruction] at found
  split at found
  case h_1 _ => simp at found
  case h_2 label body split =>
    rcases splitOnce_isInfix split with ⟨labelIsPart, bodyIsPart⟩
    rcases bind_eq_ok_iff.1 found with ⟨address, _, found⟩
    suffices ∃ target, Instruction.ofCode address label body target = instruction by
      rcases this with ⟨target, rfl⟩
      exact .ofCode (codeSingle.of_part labelIsPart) (codeSingle.of_part bodyIsPart) address target
    dsimp only at found
    split at found <;>
      obtain ⟨target, _, found⟩ := bind_eq_ok_iff.1 found <;>
      exact ⟨target, Except.ok.inj found⟩

theorem stepInClass_inOneLine {parent : OpenClass} {next : Scope} {completed : List Class}
    (inOneLine : parent.InOneLine) (stepped : stepInClass parent line = .ok (completed, next)) :
    (∀ cls ∈ completed, cls.InOneLine) ∧ next.InOneLine := by
  rw [stepInClass] at stepped
  split at stepped
  · rcases Prod.mk.inj (Except.ok.inj stepped) with ⟨rfl, rfl⟩
    exact ⟨inOneLine.complete, trivial⟩
  · split at stepped
    · rcases map_eq_ok_iff.1 stepped with ⟨size, _, equal⟩
      rcases Prod.mk.inj equal with ⟨rfl, rfl⟩
      exact ⟨by simp, inOneLine⟩
    · rcases Prod.mk.inj (Except.ok.inj stepped) with ⟨rfl, rfl⟩
      exact ⟨by simp, inOneLine⟩

theorem stepBeforePositions_inOneLine {parent : OpenClass} {method : OpenMethod}
    (inOneLine : parent.InOneLine) (methodInOneLine : method.InOneLine) :
    (stepBeforePositions parent method line).InOneLine := by
  unfold stepBeforePositions
  split <;> exact ⟨inOneLine, methodInOneLine⟩

/-- A line takes a scope whose texts are in one line each to another one, and completes only such
classes. -/
theorem step_inOneLine {scope next : Scope} {completed : List Class}
    (inOneLine : scope.InOneLine) (single : line.SingleLine)
    (stepped : step scope line = .ok (completed, next)) :
    (∀ cls ∈ completed, cls.InOneLine) ∧ next.InOneLine := by
  cases scope with
  | betweenClasses =>
      rcases Prod.mk.inj (Except.ok.inj stepped) with ⟨rfl, rfl⟩
      exact ⟨by simp, by split <;> trivial⟩
  | beforeDescriptor =>
      rcases map_eq_ok_iff.1 stepped with ⟨scope, found, equal⟩
      rcases Prod.mk.inj equal with ⟨rfl, rfl⟩
      refine ⟨by simp, ?_⟩
      rw [stepDescriptor] at found
      split at found
      case h_1 _ => simp at found
      case h_2 name isName =>
        rcases Except.ok.inj found with rfl
        split
        · trivial
        · exact ⟨className?_singleLine single isName, by simp⟩
  | inClass parent => exact stepInClass_inOneLine inOneLine stepped
  | beforeSignature parent codeSize =>
      rcases map_eq_ok_iff.1 stepped with ⟨scope, found, equal⟩
      rcases Prod.mk.inj equal with ⟨rfl, rfl⟩
      refine ⟨by simp, ?_⟩
      rw [stepSignature] at found
      split at found
      case h_1 _ => simp at found
      case h_2 name descriptor split =>
        rcases Except.ok.inj found with rfl
        have lastSingle := single.of_part (afterLast_isInfix '.' line)
        rcases splitOnce_isInfix split with ⟨nameIsPart, descriptorIsPart⟩
        exact ⟨inOneLine, lastSingle.of_part nameIsPart, lastSingle.of_part descriptorIsPart,
          by simp⟩
  | inCode parent method =>
      rw [step] at stepped
      split at stepped
      · rcases Prod.mk.inj (Except.ok.inj stepped) with ⟨rfl, rfl⟩
        exact ⟨by simp, stepBeforePositions_inOneLine inOneLine.1 inOneLine.2⟩
      · rcases map_eq_ok_iff.1 stepped with ⟨instruction, read, equal⟩
        rcases Prod.mk.inj equal with ⟨rfl, rfl⟩
        exact ⟨by simp, inOneLine.1, inOneLine.2.add (readInstruction_inOneLine single read)⟩
  | beforePositions parent method =>
      rcases Prod.mk.inj (Except.ok.inj stepped) with ⟨rfl, rfl⟩
      exact ⟨by simp, stepBeforePositions_inOneLine inOneLine.1 inOneLine.2⟩
  | inPositions parent method table =>
      rw [step] at stepped
      split at stepped
      case h_1 _ =>
        rcases bind_eq_ok_iff.1 stepped with ⟨key, _, stepped⟩
        rcases bind_eq_ok_iff.1 stepped with ⟨value, _, stepped⟩
        rcases Prod.mk.inj (Except.ok.inj stepped) with ⟨rfl, rfl⟩
        exact ⟨by simp, inOneLine⟩
      case h_2 _ =>
        rcases bind_eq_ok_iff.1 stepped with ⟨added, isAdded, stepped⟩
        exact stepInClass_inOneLine (inOneLine.1.add inOneLine.2 isAdded) stepped

/-- All texts of the classes of a `dexdump` dump are in one line each. -/
theorem read_inOneLine {text : Text} {classes : List Class} (accepted : read text = .ok classes) :
    ∀ cls ∈ classes, cls.InOneLine := by
  have maintains : machine.Maintains SingleLine Scope.InOneLine Class.InOneLine :=
    { start := trivial
      step := step_inOneLine
      finish := fun {scope classes} _ finished => by
        cases scope with
        | betweenClasses => simp_all [machine, finish]
        | inPositions parent method table =>
            rcases bind_eq_ok_iff.1 finished with ⟨added, _, failed⟩
            simp at failed
        | _ => simp [machine, finish] at finished }
  exact maintains.read (fun _ => SingleLine.of_mem_lines) accepted

end Dexdump

end CompiledViews.Dump
