import CompiledViews.Dump.Javap
import CompiledViews.Proofs.Dump.Reading
import CompiledViews.Proofs.Text.Occurrence
import CompiledViews.Proofs.Text.SingleLine
import Mathlib.Data.List.Infix
import Mathlib.Data.List.TakeWhile

/-!
# Sections of a `javap` dump

A dump is a list of sections, one for each class: a header with the keyword `class`, lines of the
body, and a closing brace. The reader finds the header of a section by its keyword and takes the
name from there as far as it knows the characters; it does not know a name of one character, nor one
that begins with a dollar sign or a letter beyond ASCII. It passes over the section of such a class,
and each other section gives one class.

Below a header the class stays open until its closing brace, whatever the lines say, except where
the table of a switch is open: there the brace closes the table. So each switch table has to be
closed within the body it stands in.
-/

namespace CompiledViews.Dump.Javap

open Text Text.Form

/-- The word between the modifiers and the name of a class, with the spaces around it. -/
def keyword : Text := " class "

/-- What a dump says of one class: its modifiers, its name, what the line goes on with up to the
brace, and the lines up to the closing brace. -/
structure Section where
  modifiers : Text
  name : Text
  tail : Text
  body : List Text
deriving DecidableEq, Repr

namespace Section

def header (part : Section) : Text := part.modifiers ++ keyword ++ part.name

def opening (part : Section) : Text := part.header ++ part.tail ++ "\x7b"

def lines (part : Section) : List Text := part.opening :: part.body ++ [closing]

end Section

/-- What the reader takes for the name of a class that has the given one. -/
def readName? : Text → Option Text
  | [] => none
  | first :: others =>
    let known := others.takeWhile isNamePart
    if isNameStart first && !known.isEmpty then some (first :: known) else none

theorem readName?_isPrefix {name known : Text} (isRead : readName? name = some known) :
    known <+: name := by
  rcases name with _ | ⟨first, others⟩
  · simp [readName?] at isRead
  · simp only [readName?, Option.ite_none_right_eq_some, Option.some.injEq] at isRead
    rcases isRead with ⟨-, rfl⟩
    exact (List.prefix_cons_inj first).2 (List.takeWhile_prefix _)

/-- A name that ends where the rest begins is read as far as the reader knows its characters. -/
theorem name_append {name rest : Text} (named : name ≠ [])
    (ends : ∀ head ∈ rest.head?, isNamePart head = false) :
    (do let first ← one isNameStart
        let others ← span1 isNamePart
        pure (first :: others) : Form Text) (name ++ rest) =
      match readName? name with
      | some known => [(known, (name ++ rest).drop known.length)]
      | none => [] := by
  obtain ⟨first, others, rfl⟩ := List.exists_cons_of_ne_nil named
  have known := takeWhile_append_of_head ends others
  by_cases starts : isNameStart first = true
  · have unread : (others ++ rest).dropWhile isNamePart =
        (others ++ rest).drop (others.takeWhile isNamePart).length := by
      have whole := List.takeWhile_append_dropWhile (p := isNamePart) (l := others ++ rest)
      rw [known] at whole
      simpa using congrArg (List.drop (others.takeWhile isNamePart).length) whole
    have read : span1 isNamePart (others ++ rest) =
        if (others.takeWhile isNamePart).isEmpty then []
        else [(others.takeWhile isNamePart,
          (others ++ rest).drop (others.takeWhile isNamePart).length)] := by
      rw [span1, List.span_eq_takeWhile_dropWhile, known, unread]
    generalize taken_eq : others.takeWhile isNamePart = taken at read
    cases taken <;>
      simp [readName?, bind, andThen, one, starts, read, taken_eq, pure, nothing]
  · simp [readName?, bind, andThen, one, starts]

/-- Whether a line is an instruction whose operands are on the lines below it. -/
def opensSwitch (line : Text) : Bool :=
  match instructionLine.first? (trim line) with
  | some (_, code) => isSwitch (Instruction.ofCode 0 [] code none)
  | none => false

/-- Each switch among some lines has a line further down that closes its table. -/
def SwitchesClose : List Text → Prop
  | [] => True
  | line :: later =>
    (opensSwitch line = true → ∃ last ∈ later, trim last = closing) ∧ SwitchesClose later

instance decidableSwitchesClose : DecidablePred SwitchesClose
  | [] => inferInstanceAs (Decidable True)
  | line :: later =>
    have := decidableSwitchesClose later
    inferInstanceAs (Decidable
      ((opensSwitch line = true → ∃ last ∈ later, trim last = closing) ∧ SwitchesClose later))

namespace Section

/-- A section as the tool prints it: the keyword stands in its header once, the name ends where the
tail begins, and no line below the header opens or ends a class. -/
structure IsPlain (part : Section) : Prop where
  named : part.name ≠ []
  before : ¬keyword <:+: part.modifiers ++ [' ']
  after : ¬keyword <:+: ' ' :: (part.name ++ part.tail)
  tail : ∀ head ∈ part.tail.head?, isNamePart head = false
  foreign : isBuiltIn part.name = false
  body : ∀ line ∈ part.body, line ≠ closing ∧ classLine.accepts line = false
  switches : SwitchesClose part.body

instance (part : Section) : Decidable part.IsPlain :=
  decidable_of_iff
    (part.name ≠ [] ∧ ¬keyword <:+: part.modifiers ++ [' '] ∧
      ¬keyword <:+: ' ' :: (part.name ++ part.tail) ∧
      part.tail.head?.all (fun head => !isNamePart head) = true ∧ isBuiltIn part.name = false ∧
      (∀ line ∈ part.body, line ≠ closing ∧ classLine.accepts line = false) ∧
      SwitchesClose part.body)
    ⟨fun ⟨named, before, after, tail, foreign, body, switches⟩ =>
      { named, before, after, foreign, body, switches
        tail := fun head isHead => by simpa using Option.all_eq_true _ _ |>.1 tail head isHead },
      fun plain => ⟨plain.named, plain.before, plain.after,
        (Option.all_eq_true _ _).2 fun head isHead => by simpa using plain.tail head isHead,
        plain.foreign, plain.body, plain.switches⟩⟩

variable {part : Section}

theorem IsPlain.upTo_keyword (plain : part.IsPlain) (single : part.opening.SingleLine) :
    anythingUpTo keyword part.opening =
      [(part.modifiers, part.name ++ (part.tail ++ ['\x7b']))] := by
  have isWord : keyword = ' ' :: (['c', 'l', 'a', 's', 's'] ++ [' ']) := by decide
  have split : part.opening =
      part.modifiers ++ (keyword ++ (part.name ++ (part.tail ++ ['\x7b']))) := by
    simp [opening, header]
  rw [split] at single ⊢
  have members := anyInLine_of_mem (SingleLine.append_iff.1 single).1
  have notAfter : ¬keyword <:+: ' ' :: (part.name ++ (part.tail ++ ['\x7b'])) := by
    intro occurs
    have noBrace : '\x7b' ∉ keyword := by decide
    exact plain.after (infix_of_infix_concat noBrace (by simpa using occurs))
  have notBefore := plain.before
  rw [isWord] at notAfter notBefore ⊢
  refine upTo_eq_singleton members fun other left split => ?_
  exact word_once (by decide) notBefore notAfter (by simpa using split)

/-- The line that opens a section is read as far as the reader knows the name. -/
theorem IsPlain.classLine_opening (plain : part.IsPlain) (single : part.opening.SingleLine) :
    classLine.first? part.opening =
      (readName? part.name).map fun known => (part.modifiers ++ keyword ++ known, known) := by
  rw [classLine, first?]
  have ends : ∀ head ∈ (part.tail ++ ['\x7b']).head?, isNamePart head = false := by
    rcases tail_eq : part.tail with _ | ⟨head, tail⟩
    · rintro brace ⟨⟩
      decide
    · simpa [tail_eq] using plain.tail
  have readings := plain.upTo_keyword single
  have name := name_append plain.named ends
  simp only [bind, andThen, covering] at name ⊢
  rw [show anythingUpTo " class " = anythingUpTo keyword from rfl, readings]
  simp only [List.flatMap_singleton, name]
  rcases isRead : readName? part.name with _ | known
  · rfl
  · obtain ⟨left, name_eq⟩ := readName?_isPrefix isRead
    let front := part.modifiers ++ keyword ++ known
    have split : part.opening = front ++ (left ++ part.tail ++ ['\x7b']) := by
      simp [front, opening, header, ← name_eq]
    have unread : (part.name ++ (part.tail ++ ['\x7b'])).drop known.length =
        left ++ part.tail ++ ['\x7b'] := by
      simp [← name_eq]
    have covered : (front ++ (left ++ part.tail ++ ['\x7b'])).take
        ((front ++ (left ++ part.tail ++ ['\x7b'])).length -
          (left ++ part.tail ++ ['\x7b']).length) = front := by
      rw [List.length_append, Nat.add_sub_cancel, List.take_left]
    rw [split] at single ⊢
    obtain ⟨shorter, toEnd⟩ : ∃ shorter, anythingUpTo "\x7b" (left ++ part.tail ++ ['\x7b']) =
        (left ++ part.tail, []) :: shorter :=
      upTo_append_mark
        (anyInLine_of_mem (SingleLine.append_iff.1 (SingleLine.append_iff.1 single).2).1)
    simp only [unread, List.map_singleton, List.flatMap_singleton, covered, toEnd]
    rfl

end Section

/-- Whether a class of the given header and name is open. -/
def Scope.IsIn (header name : Text) : Scope → Prop
  | betweenClasses => False
  | inClass parent | afterHeader parent _ | inCode parent _ | inSwitch parent _ _ _
  | beforeTable parent _ | inTable parent _ _ => parent.header = header ∧ parent.name = name

/-- Whether the table of a switch is open. -/
def Scope.IsInSwitch : Scope → Prop
  | inSwitch .. => True
  | _ => False

/-- What a line does where a class is open: the class stays open, or the line closes it. The table
of a switch is open below the line only if the line opens it or does not close it. -/
inductive Continues (header name line : Text) (scope : Scope) : List Class → Scope → Prop where
  | staysOpen {next : Scope} (isIn : next.IsIn header name)
      (goesOn : line = closing → scope.IsInSwitch)
      (switch : next.IsInSwitch →
        opensSwitch line = true ∨ scope.IsInSwitch ∧ trim line ≠ closing) :
      Continues header name line scope [] next
  | closes (methods : List Method) (isEnd : line = closing) (noSwitch : ¬scope.IsInSwitch) :
      Continues header name line scope (OpenClass.complete ⟨header, name, methods⟩) .betweenClasses

section step

variable {header name line : Text} {scope next : Scope} {completed : List Class}

theorem continues_stepInClass (parent : OpenClass) (line : Text) (noSwitch : ¬scope.IsInSwitch) :
    Continues parent.header parent.name line scope (stepInClass parent line).1
      (stepInClass parent line).2 := by
  unfold stepInClass
  split
  case isTrue isEnd => exact .closes parent.methods isEnd noSwitch
  case isFalse goesOn =>
    split <;> exact .staysOpen ⟨rfl, rfl⟩ (fun isEnd => absurd isEnd goesOn) False.elim

theorem continues_stepBeforeTable (parent : OpenClass) (method : OpenMethod) (line : Text)
    (noSwitch : ¬scope.IsInSwitch) :
    Continues parent.header parent.name line scope (stepBeforeTable parent method line).1
      (stepBeforeTable parent method line).2 := by
  unfold stepBeforeTable
  split
  case isTrue _ => exact continues_stepInClass (parent.add method .empty) line noSwitch
  case isFalse goesOn =>
    have noEnd : line ≠ closing := fun isEnd => goesOn (by simp [isEnd])
    split <;> exact .staysOpen ⟨rfl, rfl⟩ (fun isEnd => absurd isEnd noEnd) False.elim

theorem first?_instructionLine_closing : instructionLine.first? (trim closing) = none := by decide

theorem first?_lineEntry_closing : lineEntry.first? (trim closing) = none := by decide

theorem ofCode_of_readInstruction {address code : Text} {instruction : Instruction}
    (read : readInstruction address code = .ok instruction) :
    ∃ start target, instruction = Instruction.ofCode start address code target := by
  rcases bind_eq_ok_iff.1 read with ⟨start, -, read⟩
  dsimp only at read
  split at read <;>
    obtain ⟨target, -, read⟩ := bind_eq_ok_iff.1 read <;>
    exact ⟨start, target, (Except.ok.inj read).symm⟩

theorem continues_step (isIn : scope.IsIn header name)
    (stepped : step scope line = .ok (completed, next)) :
    Continues header name line scope completed next := by
  cases scope with
  | betweenClasses => cases isIn
  | inClass parent =>
      rcases isIn with ⟨rfl, rfl⟩
      rcases Prod.mk.inj (Except.ok.inj stepped) with ⟨rfl, rfl⟩
      exact continues_stepInClass parent line id
  | afterHeader parent method =>
      rcases isIn with ⟨rfl, rfl⟩
      rw [step] at stepped
      split at stepped
      case isTrue marks =>
        rcases Prod.mk.inj (Except.ok.inj stepped) with ⟨rfl, rfl⟩
        refine .staysOpen ⟨rfl, rfl⟩ (fun isEnd => absurd marks ?_) False.elim
        rw [isEnd]
        decide
      case isFalse _ =>
        rcases Prod.mk.inj (Except.ok.inj stepped) with ⟨rfl, rfl⟩
        exact continues_stepInClass parent line id
  | inCode parent method =>
      rcases isIn with ⟨rfl, rfl⟩
      rw [step] at stepped
      split at stepped
      case h_1 _ =>
        rcases Prod.mk.inj (Except.ok.inj stepped) with ⟨rfl, rfl⟩
        exact continues_stepBeforeTable parent method line id
      case h_2 address code found =>
        have noEnd : line ≠ closing := by
          rintro rfl
          simp [first?_instructionLine_closing] at found
        rcases bind_eq_ok_iff.1 stepped with ⟨instruction, read, stepped⟩
        rcases ofCode_of_readInstruction read with ⟨start, target, rfl⟩
        split at stepped
        case isTrue opens =>
          rcases Prod.mk.inj (Except.ok.inj stepped) with ⟨rfl, rfl⟩
          refine .staysOpen ⟨rfl, rfl⟩ (fun isEnd => absurd isEnd noEnd) fun _ => .inl ?_
          rw [opensSwitch, found]
          exact opens
        case isFalse _ =>
          rcases Prod.mk.inj (Except.ok.inj stepped) with ⟨rfl, rfl⟩
          exact .staysOpen ⟨rfl, rfl⟩ (fun isEnd => absurd isEnd noEnd) False.elim
  | inSwitch parent method switch cases =>
      rcases isIn with ⟨rfl, rfl⟩
      rw [step] at stepped
      split at stepped
      case isTrue _ =>
        rcases Prod.mk.inj (Except.ok.inj stepped) with ⟨rfl, rfl⟩
        exact .staysOpen ⟨rfl, rfl⟩ (fun _ => trivial) False.elim
      case isFalse goesOn =>
        rcases Prod.mk.inj (Except.ok.inj stepped) with ⟨rfl, rfl⟩
        exact .staysOpen ⟨rfl, rfl⟩ (fun _ => trivial) fun _ => .inr ⟨trivial, goesOn⟩
  | beforeTable parent method =>
      rcases isIn with ⟨rfl, rfl⟩
      rcases Prod.mk.inj (Except.ok.inj stepped) with ⟨rfl, rfl⟩
      exact continues_stepBeforeTable parent method line id
  | inTable parent method table =>
      rcases isIn with ⟨rfl, rfl⟩
      rw [step] at stepped
      split at stepped
      case h_1 _ =>
        rcases Prod.mk.inj (Except.ok.inj stepped) with ⟨rfl, rfl⟩
        exact continues_stepInClass (parent.add method table) line id
      case h_2 sourceLine address found =>
        have noEnd : line ≠ closing := by
          rintro rfl
          simp [first?_lineEntry_closing] at found
        rcases bind_eq_ok_iff.1 stepped with ⟨value, -, stepped⟩
        rcases bind_eq_ok_iff.1 stepped with ⟨key, -, stepped⟩
        rcases Prod.mk.inj (Except.ok.inj stepped) with ⟨rfl, rfl⟩
        exact .staysOpen ⟨rfl, rfl⟩ (fun isEnd => absurd isEnd noEnd) False.elim

/-- Lines below a header that do not close the class leave it open, and the table of a switch is
closed where they end. -/
theorem isIn_of_reading {final : Scope} {body : List Text}
    (reading : machine.Reading scope body completed final) (isIn : scope.IsIn header name)
    (goesOn : ∀ line ∈ body, line ≠ closing) (switchesClose : SwitchesClose body)
    (closesHere : scope.IsInSwitch → ∃ last ∈ body, trim last = closing) :
    completed = [] ∧ final.IsIn header name ∧ ¬final.IsInSwitch := by
  induction reading with
  | done scope => exact ⟨rfl, isIn, fun inSwitch => by simpa using closesHere inSwitch⟩
  | @line scope next final line rest first later stepped others ih =>
      obtain ⟨lineGoesOn, othersGoOn⟩ := List.forall_mem_cons.1 goesOn
      cases continues_step isIn stepped with
      | closes methods isEnd _ => exact absurd isEnd lineGoesOn
      | staysOpen nextIsIn _ switch =>
          refine ih nextIsIn othersGoOn switchesClose.2 fun inSwitch => ?_
          rcases switch inSwitch with opens | ⟨wasInSwitch, goesOnInSwitch⟩
          · exact switchesClose.1 opens
          · obtain ⟨last, member, isLast⟩ := closesHere wasInSwitch
            rcases List.mem_cons.1 member with rfl | later
            · exact absurd isLast goesOnInSwitch
            · exact ⟨last, later, isLast⟩

/-- The closing brace closes a class that is open, unless it closes the table of a switch. -/
theorem closes_of_reading {final : Scope}
    (reading : machine.Reading scope [closing] completed final) (isIn : scope.IsIn header name)
    (noSwitch : ¬scope.IsInSwitch) :
    final = .betweenClasses ∧
      ∃ methods, completed = OpenClass.complete ⟨header, name, methods⟩ := by
  rcases Machine.Reading.cons_iff.1 reading with ⟨early, next, late, stepped, others, rfl⟩
  rcases Machine.Reading.nil_iff.1 others with ⟨rfl, rfl⟩
  cases continues_step isIn stepped with
  | closes methods _ _ => exact ⟨rfl, methods, by simp⟩
  | staysOpen _ goesOn _ => exact absurd (goesOn rfl) noSwitch

/-- Lines between classes that open none are passed over. -/
theorem passed_of_reading {final : Scope} {lines : List Text}
    (reading : machine.Reading .betweenClasses lines completed final)
    (noClass : ∀ line ∈ lines, classLine.accepts line = false) :
    completed = [] ∧ final = .betweenClasses := by
  induction lines generalizing completed with
  | nil =>
      rcases Machine.Reading.nil_iff.1 reading with ⟨rfl, rfl⟩
      exact ⟨rfl, rfl⟩
  | cons line lines ih =>
      obtain ⟨isNone, others⟩ := List.forall_mem_cons.1 noClass
      rcases Machine.Reading.cons_iff.1 reading with ⟨early, next, late, stepped, readLines, rfl⟩
      have opensNone : classLine.first? line = none := by simpa [accepts] using isNone
      obtain ⟨rfl, rfl⟩ : early = [] ∧ next = .betweenClasses := by
        simpa [machine, step, opensNone, eq_comm] using stepped
      simpa using ih readLines others

end step

namespace Section

/-- The header that the reader takes the section for, unless it passes it over. -/
def readHeader? (part : Section) : Option Text :=
  (readName? part.name).map fun known => part.modifiers ++ keyword ++ known

theorem isBuiltIn_of_isPrefix {name known : Text} (isPrefix : known <+: name)
    (builtIn : isBuiltIn known = true) : isBuiltIn name = true := by
  rcases isPrefix with ⟨left, rfl⟩
  simp only [isBuiltIn, List.any_eq_true] at builtIn ⊢
  rcases builtIn with ⟨package, member, builtIn⟩
  refine ⟨package, member, ?_⟩
  split at builtIn
  case h_1 first rest found =>
    have here : after? (package ++ ".") (known ++ left) = some (first :: (rest ++ left)) := by
      rw [after?_eq_some_iff] at found ⊢
      simp [found]
    rw [here]
    exact builtIn
  case h_2 _ => cases builtIn

/-- A section gives one class if the reader knows how its name begins, and none otherwise. -/
theorem IsPlain.headers_of_reading {part : Section} {completed : List Class} {final : Scope}
    (plain : part.IsPlain) (single : part.opening.SingleLine)
    (reading : machine.Reading .betweenClasses part.lines completed final) :
    completed.map Class.header = part.readHeader?.toList ∧ final = .betweenClasses := by
  have opens := plain.classLine_opening single
  rcases isRead : readName? part.name with _ | known
  · rw [isRead] at opens
    have noClass : ∀ line ∈ part.lines, classLine.accepts line = false := by
      intro line member
      simp only [lines, List.cons_append, List.mem_cons, List.mem_append, List.not_mem_nil,
        or_false] at member
      rcases member with rfl | inBody | rfl
      · simp [accepts, opens]
      · exact (plain.body line inBody).2
      · decide
    obtain ⟨rfl, rfl⟩ := passed_of_reading reading noClass
    simp [readHeader?, isRead]
  · rw [isRead] at opens
    rcases Machine.Reading.cons_iff.1 reading with ⟨early, next, late, stepped, below, rfl⟩
    obtain ⟨rfl, rfl⟩ : early = [] ∧
        next = .inClass ⟨part.modifiers ++ keyword ++ known, known, []⟩ := by
      simpa [machine, step, opens, eq_comm] using stepped
    rcases Machine.Reading.append_iff.1 below with ⟨ofBody, last, ofEnd, readBody, readEnd, rfl⟩
    obtain ⟨rfl, isIn, noSwitch⟩ := isIn_of_reading readBody ⟨rfl, rfl⟩
      (fun line member => (plain.body line member).1) plain.switches False.elim
    obtain ⟨rfl, methods, rfl⟩ := closes_of_reading readEnd isIn noSwitch
    have foreign : isBuiltIn known = false := by
      by_contra builtIn
      have whole := isBuiltIn_of_isPrefix (readName?_isPrefix isRead) (by simpa using builtIn)
      simp [plain.foreign] at whole
    simp [OpenClass.complete, foreign, readHeader?, isRead]

end Section

/-- Sections one after the other give one class each if the reader knows how its name begins, and
none otherwise. -/
theorem headers_of_reading {sections : List Section} {completed : List Class} {final : Scope}
    (plain : ∀ part ∈ sections, part.IsPlain ∧ part.opening.SingleLine)
    (reading : machine.Reading .betweenClasses (sections.flatMap Section.lines) completed final) :
    completed.map Class.header = sections.filterMap Section.readHeader? ∧
      final = .betweenClasses := by
  induction sections generalizing completed with
  | nil =>
      rcases Machine.Reading.nil_iff.1 reading with ⟨rfl, rfl⟩
      exact ⟨rfl, rfl⟩
  | cons part sections ih =>
      obtain ⟨⟨isPlain, single⟩, others⟩ := List.forall_mem_cons.1 plain
      rw [List.flatMap_cons] at reading
      rcases Machine.Reading.append_iff.1 reading with
        ⟨early, middle, late, readPart, readOthers, rfl⟩
      obtain ⟨ofPart, rfl⟩ := isPlain.headers_of_reading single readPart
      obtain ⟨ofOthers, rfl⟩ := ih others readOthers
      refine ⟨?_, rfl⟩
      rw [List.map_append, ofPart, ofOthers, List.filterMap_cons]
      rcases part.readHeader? with _ | header <;> rfl

/-- A name that the reader knows: it begins with an ASCII letter or an underscore and goes on, at
least by one character, with word characters, periods and dollar signs. -/
def isKnownName : Text → Bool
  | [] => false
  | first :: others => isNameStart first && !others.isEmpty && others.all isNamePart

theorem readName?_of_isKnownName {name : Text} (isKnown : isKnownName name = true) :
    readName? name = some name := by
  rcases name with _ | ⟨first, others⟩
  · simp [isKnownName] at isKnown
  · simp only [isKnownName, Bool.and_eq_true, List.all_eq_true] at isKnown
    rcases isKnown with ⟨⟨starts, goesOn⟩, areParts⟩
    have whole : others.takeWhile isNamePart = others := List.takeWhile_eq_self_iff.2 areParts
    simp [readName?, whole, starts, goesOn]

/-- A dump of sections that is read gives one class for each section whose name begins in a way
that the reader knows, in the order of the sections, and passes over the others. The headers of the
classes are those of the sections up to the end of their names if the reader knows all of these. -/
theorem headers_of_read {sections : List Section} {text : Text} {classes : List Class}
    (plain : ∀ part ∈ sections, part.IsPlain)
    (isDump : Text.lines text = sections.flatMap Section.lines)
    (accepted : read text = .ok classes) :
    classes.map Class.header = sections.filterMap Section.readHeader? ∧
      ((∀ part ∈ sections, isKnownName part.name = true) →
        classes.map Class.header = sections.map Section.header) := by
  have single : ∀ part ∈ sections, part.opening.SingleLine := by
    intro part member
    have inLines : part.opening ∈ Text.lines text := by
      rw [isDump]
      exact List.mem_flatMap.2 ⟨part, member, by simp [Section.lines]⟩
    exact SingleLine.of_mem_lines inLines
  rcases Machine.read_eq_ok_iff.1 accepted with ⟨completed, final, last, reading, finished, rfl⟩
  rw [isDump] at reading
  obtain ⟨headers, rfl⟩ :=
    headers_of_reading (fun part member => ⟨plain part member, single part member⟩) reading
  obtain rfl : last = [] := (Except.ok.inj finished).symm
  rw [List.append_nil, headers]
  refine ⟨rfl, fun isKnown => ?_⟩
  rw [← List.filterMap_eq_map]
  refine List.filterMap_congr fun part member => ?_
  simp [Section.readHeader?, readName?_of_isKnownName (isKnown part member), Section.header]

/-- Three sections: a generic class in a package, a class whose name is one letter, and a nested
class. -/
def boxSections : List Section :=
  [{ modifiers := "public final", name := "demo.Box"
     tail := "<T extends java.lang.Object> implements demo.Pick<T> "
     body := ["  public int pick(int);", "    Code:", "       0: tableswitch   \x7b // 0 to 0",
       "               0: 9", "         default: 8", "          \x7d", "       9: ireturn"] },
   { modifiers := "final", name := "A", tail := " ", body := ["  void go();"] },
   { modifiers := "abstract", name := "Shape$_1", tail := " ", body := [] }]

def boxDump : Text := unlines (boxSections.flatMap Section.lines)

/-- The classes that are read from these sections. -/
def boxClasses : List Class :=
  [{ header := "public final class demo.Box"
     methods :=
       [{ header := "public int pick(int)", index := none, codeSize := none, isa := .byteCode
          instructions :=
            [{ Instruction.ofCode 0 "0" "tableswitch" none with
                operands := "\x7b 0: 9, default: 8 \x7d" },
             Instruction.ofCode 9 "9" "ireturn" none]
          references := .empty }] },
   { header := "abstract class Shape$_1", methods := [] }]

theorem boxSections_isPlain : ∀ part ∈ boxSections, part.IsPlain := by
  -- The kernel is slow at taking strings apart, so that is done before.
  unfold boxSections
  repeat rewrite [String.toList_ofList]
  decide

theorem lines_boxDump : Text.lines boxDump = boxSections.flatMap Section.lines := by
  unfold boxDump boxSections
  repeat rewrite [String.toList_ofList]
  decide

theorem read_boxDump : read boxDump = .ok boxClasses := by
  unfold boxDump boxSections boxClasses
  repeat rewrite [String.toList_ofList]
  decide +kernel

/-- Of these sections the second one is passed over. -/
theorem headers_of_read_boxDump :
    (∀ part ∈ boxSections, part.IsPlain) ∧
      Text.lines boxDump = boxSections.flatMap Section.lines ∧ read boxDump = .ok boxClasses ∧
      boxClasses.map Class.header = boxSections.filterMap Section.readHeader? :=
  ⟨boxSections_isPlain, lines_boxDump, read_boxDump,
    (headers_of_read boxSections_isPlain lines_boxDump read_boxDump).1⟩

/-- The section of a class whose name is one letter. -/
def letterSection : Section := ⟨"public final", "A", " ", []⟩

/-- Not every section gives a class, even if all names consist of ASCII letters: a name of one
letter is not known to the reader. -/
theorem not_forall_headers : ¬∀ (sections : List Section) text classes,
    (∀ part ∈ sections, part.IsPlain ∧ part.name.all Char.isAlpha = true) →
      Text.lines text = sections.flatMap Section.lines → read text = .ok classes →
        classes.map Class.header = sections.map Section.header := by
  intro all
  have none := all [letterSection] (unlines letterSection.lines) [] (by decide)
    (by decide) (by decide)
  cases none

/-- Two sections, of which the first one has a switch table that is not closed. -/
def openSwitchLines : List Text :=
  ["final class Foo \x7b", "  int pick(int);", "    Code:", "       0: tableswitch   \x7b", "\x7d",
    "final class Bar \x7b", "\x7d"]

/-- The brace of a class closes a switch table that is open, and the section that follows goes into
the class. -/
example : (read (unlines openSwitchLines)).map (·.map Class.header) =
    .ok [("final class Foo" : Text)] := by
  unfold openSwitchLines
  repeat rewrite [String.toList_ofList]
  decide

end CompiledViews.Dump.Javap
