import CompiledViews.Proofs.Dump.Composition
import CompiledViews.Proofs.Dump.Oatdump.Lines

/-!
# Classes of an `oatdump` dump one after the other

An `oatdump` dump may end anywhere: within the code of a method, or below a call whose callee is
still unknown. A line that opens a class does to the class before it what the end of the dump does,
in whatever position the reader is, and nothing that has been read reaches beyond it but the
architecture. So a dump that is read can be cut off in front of such a line, and what stands behind
is read as if it came right below the name of the instruction set.

`Scope.Follows` says what the lines that have been read are for each scope.
-/

namespace CompiledViews.Dump.Oatdump

open Text Text.Form

/-- The line that names the instruction set, right below the first mark for it. -/
def setName? (lines : List Text) : Option Text :=
  ((lines.dropWhile fun line => !startsWith (trim line) "INSTRUCTION SET:").drop 1).head?

/-- A dump that begins with the name of its instruction set. -/
def named (name body : Text) : Text := "INSTRUCTION SET:" ++ '\n' :: (name ++ '\n' :: body)

/-- The architecture of the dump, once its name has been read. -/
def Scope.architecture? : Scope → Option Architecture
  | beforeMark | beforeName => none
  | betweenClasses architecture | inClass architecture _ _ => some architecture

/-- Some lines of which the last one is the first mark for the instruction set. -/
def EndInMark (lines : List Text) : Prop :=
  ∃ before mark, lines = before ++ [mark] ∧
    (∀ line ∈ before, startsWith (trim line) "INSTRUCTION SET:" = false) ∧
    startsWith (trim mark) "INSTRUCTION SET:" = true

/-- What the lines are that lead to a scope. -/
def Scope.Follows (earlier : List Text) : Scope → Prop
  | beforeMark => ∀ line ∈ earlier, startsWith (trim line) "INSTRUCTION SET:" = false
  | beforeName => EndInMark earlier
  | betweenClasses architecture | inClass architecture _ _ => ∃ front name rest,
      earlier = front ++ name :: rest ∧ EndInMark front ∧
        Architecture.ofName? (trim name) = some architecture

section scope

variable {scope next final : Scope} {architecture : Architecture} {line name : Text}
  {earlier : List Text} {completed last : List Class}

/-- A line changes neither the architecture nor where the dump has named it. -/
theorem follows_of_architecture? (isKnown : next.architecture? = scope.architecture?)
    (known : scope.architecture? = some architecture) (follows : scope.Follows earlier) :
    next.Follows (earlier ++ [line]) := by
  suffices ∀ scope : Scope, scope.architecture? = some architecture → ∀ lines,
      scope.Follows lines ↔ ∃ front name rest, lines = front ++ name :: rest ∧ EndInMark front ∧
        Architecture.ofName? (trim name) = some architecture by
    rcases (this scope known _).1 follows with ⟨front, name, rest, rfl, atMark, isName⟩
    refine (this next (isKnown.trans known) _).2 ⟨front, name, rest ++ [line], ?_, atMark, isName⟩
    simp
  intro scope known lines
  cases scope with
  | beforeMark => cases known
  | beforeName => cases known
  | betweenClasses _ => exact Option.some.inj known ▸ Iff.rfl
  | inClass _ _ _ => exact Option.some.inj known ▸ Iff.rfl

theorem architecture?_step (known : scope.architecture? = some architecture)
    (stepped : step scope line = .ok (completed, next)) :
    next.architecture? = some architecture := by
  cases scope with
  | beforeMark => cases known
  | beforeName => cases known
  | betweenClasses other =>
      rcases Option.some.inj known with rfl
      rw [step] at stepped
      split at stepped
      · rcases Prod.mk.inj (Except.ok.inj stepped) with ⟨-, rfl⟩
        rfl
      · rcases Prod.mk.inj (Except.ok.inj stepped) with ⟨-, rfl⟩
        rfl
  | inClass other parent position =>
      rcases Option.some.inj known with rfl
      rw [step] at stepped
      split at stepped
      case h_1 name _ =>
        rcases bind_eq_ok_iff.1 stepped with ⟨closed, -, stepped⟩
        rcases Prod.mk.inj (Except.ok.inj stepped) with ⟨-, rfl⟩
        rfl
      case h_2 _ =>
        split at stepped
        case h_1 header index _ =>
          rcases bind_eq_ok_iff.1 stepped with ⟨closed, -, stepped⟩
          rcases bind_eq_ok_iff.1 stepped with ⟨index, -, stepped⟩
          rcases Prod.mk.inj (Except.ok.inj stepped) with ⟨-, rfl⟩
          rfl
        case h_2 _ =>
          rcases bind_eq_ok_iff.1 stepped with ⟨moved, -, stepped⟩
          rcases Prod.mk.inj (Except.ok.inj stepped) with ⟨-, rfl⟩
          rfl

theorem follows_step (follows : scope.Follows earlier)
    (stepped : machine.step scope line = .ok (completed, next)) :
    next.Follows (earlier ++ [line]) := by
  have later {architecture : Architecture} (known : scope.architecture? = some architecture) :
      next.Follows (earlier ++ [line]) :=
    follows_of_architecture? ((architecture?_step known stepped).trans known.symm) known follows
  cases scope with
  | beforeMark =>
      rcases Prod.mk.inj (Except.ok.inj stepped) with ⟨-, rfl⟩
      split
      case isTrue isMark => exact ⟨earlier, line, rfl, follows, isMark⟩
      case isFalse noMark =>
        intro other member
        rcases List.mem_append.1 member with isEarlier | isHere
        · exact follows other isEarlier
        · rcases List.mem_singleton.1 isHere with rfl
          exact eq_false_of_ne_true noMark
  | beforeName =>
      rw [machine_step, step] at stepped
      split at stepped
      case h_1 architecture isName =>
        rcases Prod.mk.inj (Except.ok.inj stepped) with ⟨-, rfl⟩
        exact ⟨earlier, line, [], rfl, follows, isName⟩
      case h_2 _ => cases stepped
  | betweenClasses architecture => exact later rfl
  | inClass architecture parent position => exact later rfl

/-- The lines below the first mark begin with the name of the instruction set. -/
theorem setName?_append {front : List Text} (atMark : EndInMark front) (name : Text)
    (rest : List Text) : setName? (front ++ name :: rest) = some name := by
  rcases atMark with ⟨before, mark, rfl, noMarks, isMark⟩
  rw [setName?, List.append_assoc, List.dropWhile_append_of_pos, List.singleton_append,
    List.dropWhile_cons_of_neg]
  · rfl
  · rw [isMark]
    decide
  · intro line member
    rw [noMarks line member]
    rfl

/-- A line that opens a class does what the end of the dump does to the class before it, and then
what it does between classes. -/
theorem step_of_finish (finished : finish scope = .ok last)
    (opens : classLine.first? line = some name) :
    ∃ architecture, scope.architecture? = some architecture ∧
      step scope line = .ok (last, openClass architecture name) := by
  cases scope with
  | beforeMark => cases finished
  | beforeName => cases finished
  | betweenClasses architecture =>
      rcases Except.ok.inj finished with rfl
      refine ⟨architecture, rfl, ?_⟩
      rw [step, opens]
  | inClass architecture parent position =>
      rcases bind_eq_ok_iff.1 finished with ⟨closed, isLeft, equal⟩
      rcases Except.ok.inj equal with rfl
      refine ⟨architecture, rfl, ?_⟩
      rw [step, opens, isLeft]
      rfl

end scope

/-- Behind a dump that may end there, classes are read as behind the name of its architecture. -/
theorem readFrom_of_finish {scope : Scope} {last : List Class} {lines : List Text}
    (finished : finish scope = .ok last)
    (opens : ∃ first ∈ lines.head?, classLine.accepts first = true) :
    ∃ architecture, scope.architecture? = some architecture ∧ ∀ before,
      machine.readFrom before scope lines =
        (machine.readFrom before (.betweenClasses architecture) lines).map (last ++ ·) := by
  rcases opens with ⟨line, isFirst, isClass⟩
  rcases List.head?_eq_some_iff.1 isFirst with ⟨rest, rfl⟩
  rcases exists_of_accepts isClass with ⟨name, opens⟩
  rcases step_of_finish finished opens with ⟨architecture, known, stepped⟩
  rw [← machine_step] at stepped
  have steppedBetween : machine.step (.betweenClasses architecture) line =
      .ok ([], openClass architecture name) := by
    rw [machine_step, step, opens]
  refine ⟨architecture, known, fun before => ?_⟩
  have fed := (Machine.Reading.one stepped).feed before
  have fedBetween := (Machine.Reading.one steppedBetween).feed before
  rw [← List.singleton_append, Machine.readFrom_append fed, Machine.readFrom_append fedBetween]
  cases machine.readFrom (before + 1) (openClass architecture name) rest <;> rfl

/-- The name of an instruction set leads to the classes behind it. -/
theorem read_named {name : Text} (single : name.SingleLine) {architecture : Architecture}
    (isName : Architecture.ofName? (trim name) = some architecture) (body : Text) :
    read (named name body) =
      machine.readFrom 2 (.betweenClasses architecture) (Text.lines body) := by
  rcases exists_lines_append_feed single body with ⟨seen, isSeen, sameTrim⟩
  let mark : Text := "INSTRUCTION SET:"
  have isLine : mark.IsLine := by decide
  have lines : Text.lines (named name body) = [mark, seen] ++ Text.lines body :=
    (isLine.lines_append_feed (name ++ '\n' :: body)).trans (congrArg (mark :: ·) isSeen)
  have isMark : startsWith (trim mark) "INSTRUCTION SET:" = true := by decide
  have readMark : machine.step .beforeMark mark = .ok ([], .beforeName) := by
    rw [machine_step, step, if_pos isMark]
  have readName : machine.step .beforeName seen = .ok ([], .betweenClasses architecture) := by
    rw [machine_step, step, sameTrim, isName]
  have fed : machine.feed 0 machine.start [mark, seen] = .ok ([], .betweenClasses architecture) :=
    (Machine.Reading.goOn readMark (.one readName)).feed 0
  rw [read, Machine.read_eq_readFrom, lines, Machine.readFrom_append fed]
  cases machine.readFrom 2 (.betweenClasses architecture) (Text.lines body) <;> rfl

/-- A dump that is read and ends in a line feed, whatever it ends in the middle of, is resumed by a
line that opens a class. What this line begins is read as it is right below the name of the
instruction set: both together give the classes of the one and then those of the other, or the error
of the other, as many lines further down as the dump has more than those that name the set. -/
theorem resumes_of_read {front back : Text} {classes : List Class}
    (accepted : read front = .ok classes) (ends : front.getLast? = some '\n')
    (opens : ∃ first ∈ (Text.lines back).head?, classLine.accepts first = true) :
    ∃ name count, setName? (Text.lines front) = some name ∧
      (Text.lines front).length = count + 2 ∧
      (∀ others, read (named name back) = .ok others →
        read (front ++ back) = .ok (classes ++ others)) ∧
      ∀ error, read (named name back) = .error error →
        read (front ++ back) = .error (error.below count) := by
  rcases Machine.read_eq_ok_iff.1 accepted with ⟨completed, final, last, reading, finished, rfl⟩
  rcases readFrom_of_finish finished opens with ⟨architecture, known, resumes⟩
  have follows : final.Follows (Text.lines front) := by
    refine reading.recounts Scope.Follows follows_step ?_
    intro line member
    cases member
  obtain ⟨before, name, rest, split, atMark, isName⟩ : ∃ before name rest,
      Text.lines front = before ++ name :: rest ∧ EndInMark before ∧
        Architecture.ofName? (trim name) = some architecture := by
    cases final with
    | beforeMark => cases known
    | beforeName => cases known
    | betweenClasses _ => exact Option.some.inj known ▸ follows
    | inClass _ _ _ => exact Option.some.inj known ▸ follows
  have isLine : name ∈ Text.lines front := by simp [split]
  have single : name.SingleLine := SingleLine.of_mem_lines isLine
  obtain ⟨count, isLong⟩ : ∃ count, (Text.lines front).length = count + 2 := by
    rcases atMark with ⟨early, mark, rfl, -⟩
    exact ⟨early.length + rest.length, by simp [split]; omega⟩
  have whole : read (front ++ back) =
      ((read (named name back)).map ((completed ++ last) ++ ·)).mapError (Error.below count) := by
    rw [read_named single isName, read, Machine.read_eq_readFrom, lines_append (.inr ends),
      Machine.readFrom_append (reading.feed 0), resumes, Nat.zero_add, isLong, Machine.readFrom_add]
    cases machine.readFrom 2 (.betweenClasses architecture) (Text.lines back) with
    | error error => rfl
    | ok others => simp [Except.map, Except.mapError]
  refine ⟨name, count, split ▸ setName?_append atMark name rest, isLong, ?_, ?_⟩
  · intro others isRead
    rw [whole, isRead]
    rfl
  · intro error failed
    rw [whole, failed]
    rfl

/-- A dump that ends below a call, whose `InlineInfo` line might still follow. -/
def cutDump : Text :=
  "INSTRUCTION SET:\n X86_64\n0: LCut; (offset=0x1) (type_idx=1) -\n" ++
    " 0: void f() (dex_method_idx=7)\n DEX CODE:\n CODE:\n 0x10: e8 call 0x20\n" ++
    " StackMap (dex_pc=0x0, r)\n"

def cutClasses : List Class :=
  [{ header := "class Cut"
     methods :=
       [{ header := "void f()", index := some 7, codeSize := none, isa := .x86_64
          instructions :=
            [{ Instruction.ofCode 0x10 "0x10" "call 0x20" none with callAddress := some 0 }]
          references := .empty }] }]

def nextLine : Text := "1: LNext; (offset=0x2) (type_idx=2) -"

/-- A class that goes on with an `InlineInfo` line. -/
def nextDump : Text :=
  nextLine ++ '\n' :: (" InlineInfo (dex_pc=0x2, method_index=7)\n" ++
    " 0: void g() (dex_method_idx=8)\n DEX CODE:\n CODE:\n")

def nextClasses : List Class :=
  [{ header := "class Next"
     methods :=
       [{ header := "void g()", index := some 8, codeSize := none, isa := .x86_64
          instructions := [], references := .empty }] }]

/-- A class whose method has an index that is no number. -/
def faultyDump : Text := nextLine ++ '\n' :: " 0: void g() (dex_method_idx=99999999999)".toList

theorem opens_nextLine (body : Text) :
    ∃ first ∈ (Text.lines (nextLine ++ '\n' :: body)).head?, classLine.accepts first = true := by
  have isLine : nextLine.IsLine := by decide
  refine ⟨nextLine, ?_, by decide⟩
  rw [isLine.lines_append_feed]
  exact List.head?_cons

/-- The error in the fourth line below the mark is one in the tenth line of both together. -/
theorem resumes_of_read_cutDump :
    read cutDump = .ok cutClasses ∧ setName? (Text.lines cutDump) = some " X86_64".toList ∧
      read (cutDump ++ nextDump) = .ok (cutClasses ++ nextClasses) ∧
      read (named " X86_64" faultyDump) = .error (.invalidNumber 4 "99999999999") ∧
      read (cutDump ++ faultyDump) = .error (.invalidNumber 10 "99999999999") := by
  have facts : read cutDump = .ok cutClasses ∧ cutDump.getLast? = some '\n' ∧
      setName? (Text.lines cutDump) = some " X86_64".toList ∧
      (Text.lines cutDump).length = 6 + 2 := by
    -- The kernel is slow at taking strings apart, so that is done before.
    unfold cutDump cutClasses
    repeat rewrite [String.toList_ofList]
    decide
  rcases facts with ⟨accepted, ends, isName, isLong⟩
  have isRead : read (named " X86_64" nextDump) = .ok nextClasses := by
    unfold nextDump nextLine nextClasses
    repeat rewrite [String.toList_ofList]
    decide
  have failed : read (named " X86_64" faultyDump) = .error (.invalidNumber 4 "99999999999") := by
    unfold faultyDump nextLine
    repeat rewrite [String.toList_ofList]
    decide
  refine ⟨accepted, isName, ?_, failed, ?_⟩
  · rcases resumes_of_read accepted ends (opens_nextLine _) with ⟨name, count, hasName, -, whole, -⟩
    rcases Option.some.inj (hasName.symm.trans isName) with rfl
    exact whole nextClasses isRead
  · rcases resumes_of_read accepted ends (opens_nextLine _) with
      ⟨name, count, hasName, hasCount, -, whole⟩
    rcases Option.some.inj (hasName.symm.trans isName) with rfl
    obtain rfl : count = 6 := Nat.add_right_cancel (hasCount.symm.trans isLong)
    exact whole _ failed

end CompiledViews.Dump.Oatdump
