import CompiledViews.Proofs.Dump.Oatdump.Grammar

/-!
# Methods of an `oatdump` dump keep their own lines

The reader goes through a dump line by line, and what it makes of it is what the grammar says that
the ranges of its classes and methods give. `Scope.Rest` says what the lines that are still to come
give for a scope, and a line and what it leaves to come are what was to come before it.
-/

namespace CompiledViews.Dump.Oatdump

open Text Text.Form

section scope

/-! What the lines of a dump that are still to come give. -/

variable {architecture : Architecture} {line : Text} {lines rest : List Text}

/-- What the lines that are still to come give for the scope at hand. -/
def Scope.Rest (lines : List Text) (classes : List Class) : Scope → Prop
  | beforeMark => GivesDump lines classes
  | beforeName => ∃ name rest architecture, lines = name :: rest ∧
      Architecture.ofName? (trim name) = some architecture ∧ GivesClasses architecture rest classes
  | betweenClasses architecture => GivesClasses architecture lines classes
  | inClass architecture parent position => ∃ given methods others,
      position.Gives architecture (lines.takeWhile fun line => !isBoundary line) given ∧
      GivesMethods architecture (lines.takeWhile fun line => !classLine.accepts line) methods ∧
      GivesClasses architecture lines others ∧
      classes =
        { parent with methods := parent.methods ++ (given ++ methods) }.complete ++ others

/-- The line that opens a class and its own lines give the class unless it is built in or has no
method with code. -/
theorem givesClasses_cons {name : Text} {methods : List Method} {others : List Class}
    (opens : classLine.first? line = some name)
    (gives : GivesMethods architecture (rest.takeWhile fun line => !classLine.accepts line) methods)
    (giveOthers : GivesClasses architecture rest others) :
    GivesClasses architecture (line :: rest)
      (OpenClass.complete ⟨replaceChar '/' '.' name, methods⟩ ++ others) := by
  rw [GivesClasses, classRanges, ranges_cons_of_some opens, List.filter_cons]
  have isEmpty : (!methods.isEmpty) = (methodRanges (rest.takeWhile fun line =>
      !classLine.accepts line)).any hasCode := by
    rw [Bool.eq_iff_iff, List.any_eq_true, ← List.countP_pos_iff, List.countP_eq_length_filter,
      gives.length_eq, List.length_pos_iff, Bool.not_eq_true', List.isEmpty_eq_false_iff]
  have kept : isKept (name, rest.takeWhile fun line => !classLine.accepts line) =
      !(isBuiltIn (replaceChar '/' '.' name) || methods.isEmpty) := by
    rw [isKept, ← isEmpty, Bool.not_or]
  by_cases isDropped : (isBuiltIn (replaceChar '/' '.' name) || methods.isEmpty) = true
  · rw [kept, OpenClass.complete, if_pos isDropped, isDropped]
    exact giveOthers
  · rw [kept, OpenClass.complete, if_neg isDropped, eq_false_of_ne_true isDropped]
    exact .cons ⟨rfl, gives⟩ giveOthers

theorem takeWhile_isBoundary (lines : List Text) :
    ((lines.takeWhile fun line => !classLine.accepts line).takeWhile fun line => !isBoundary line) =
      lines.takeWhile fun line => !isBoundary line := by
  rw [List.takeWhile_takeWhile]
  congr 1
  funext line
  simp [isBoundary]

/-- A line and what follows the scope after it are what follows the scope before it. -/
theorem rest_step {scope next : Scope} {early late : List Class}
    (stepped : step scope line = .ok (early, next)) (follows : next.Rest rest late) :
    scope.Rest (line :: rest) (early ++ late) := by
  cases scope with
  | beforeMark =>
      rcases Prod.mk.inj (Except.ok.inj stepped) with ⟨rfl, rfl⟩
      split at follows
      case isTrue isMark =>
        rcases follows with ⟨name, rest, architecture, rfl, named, gives⟩
        exact ⟨[], line, name, rest, architecture, rfl, by simp, isMark, named, gives⟩
      case isFalse noMark =>
        rcases follows with ⟨before, mark, name, rest, architecture, rfl, noMarks, follows⟩
        refine ⟨line :: before, mark, name, rest, architecture, rfl, ?_, follows⟩
        exact List.forall_mem_cons.2 ⟨eq_false_of_ne_true noMark, noMarks⟩
  | beforeName =>
      rw [step] at stepped
      split at stepped
      case h_1 architecture named =>
        rcases Prod.mk.inj (Except.ok.inj stepped) with ⟨rfl, rfl⟩
        exact ⟨line, rest, architecture, rfl, named, follows⟩
      case h_2 _ => cases stepped
  | betweenClasses architecture =>
      rw [step] at stepped
      split at stepped
      case h_1 name opens =>
        rcases Prod.mk.inj (Except.ok.inj stepped) with ⟨rfl, rfl⟩
        rcases follows with ⟨_, methods, others, rfl, gives, giveOthers, rfl⟩
        exact givesClasses_cons opens gives giveOthers
      case h_2 noClass =>
        rcases Prod.mk.inj (Except.ok.inj stepped) with ⟨rfl, rfl⟩
        rw [Scope.Rest, GivesClasses, classRanges, ranges_cons_of_none noClass]
        exact follows
  | inClass architecture parent position =>
      rw [step] at stepped
      split at stepped
      case h_1 name opens =>
        rcases bind_eq_ok_iff.1 stepped with ⟨closed, left, stepped⟩
        rcases Prod.mk.inj (Except.ok.inj stepped) with ⟨rfl, rfl⟩
        -- the line ends the method and the class at hand, so nothing more is given for these
        obtain ⟨given, gives, rfl⟩ := exists_gives_of_leave left
        rcases follows with ⟨_, methods, others, rfl, ofClass, ofOthers, rfl⟩
        refine ⟨given, [], _, ?_, ?_, givesClasses_cons opens ofClass ofOthers, by simp⟩
        · rw [List.takeWhile_cons_of_neg (by simp [isBoundary, accepts, opens])]
          exact gives
        · rw [List.takeWhile_cons_of_neg (by simp [accepts, opens])]
          exact .nil
      case h_2 noClass =>
        split at stepped
        case h_1 header indexText opens =>
          rcases bind_eq_ok_iff.1 stepped with ⟨closed, left, stepped⟩
          rcases bind_eq_ok_iff.1 stepped with ⟨index, isIndex, stepped⟩
          rcases Prod.mk.inj (Except.ok.inj stepped) with ⟨rfl, rfl⟩
          -- the line ends the method at hand and opens the first range of the rest of the class
          obtain ⟨given, gives, rfl⟩ := exists_gives_of_leave left
          rcases follows with ⟨own, methods, others, ofMethod, ofClass, ofOthers, rfl⟩
          refine ⟨given, own ++ methods, others, ?_, ?_, ?_, by simp⟩
          · rw [List.takeWhile_cons_of_neg (by simp [isBoundary, accepts, opens])]
            exact gives
          · rw [List.takeWhile_cons_of_pos (by simp [accepts, noClass]), GivesMethods, methodRanges,
              ranges_cons_of_some opens, takeWhile_isBoundary, ← List.singleton_append,
              List.filter_append]
            exact List.rel_append (givesMethod_of_gives ⟨rfl, number_eq_ok_iff.1 isIndex⟩ ofMethod)
              ofClass
          · rw [GivesClasses, classRanges, ranges_cons_of_none noClass]
            exact ofOthers
        case h_2 noMethod =>
          rcases bind_eq_ok_iff.1 stepped with ⟨moved, movedTo, stepped⟩
          rcases Prod.mk.inj (Except.ok.inj stepped) with ⟨rfl, rfl⟩
          rcases follows with ⟨given, methods, others, ofMethod, ofClass, ofOthers, rfl⟩
          refine ⟨given, methods, others, ?_, ?_, ?_, rfl⟩
          · rw [List.takeWhile_cons_of_pos (by simp [isBoundary, accepts, noMethod, noClass])]
            exact gives_stepInMethod movedTo ofMethod
          · rw [List.takeWhile_cons_of_pos (by simp [accepts, noClass]), GivesMethods, methodRanges,
              ranges_cons_of_none noMethod]
            exact ofClass
          · rw [GivesClasses, classRanges, ranges_cons_of_none noClass]
            exact ofOthers

/-- What is read from a scope up to the end of the dump is what the lines give. -/
theorem rest_of_reading {scope final : Scope} {completed last : List Class}
    (reading : machine.Reading scope lines completed final)
    (finished : finish final = .ok last) : scope.Rest lines (completed ++ last) := by
  induction reading with
  | done scope =>
      rw [List.nil_append]
      cases scope with
      | betweenClasses architecture =>
          obtain rfl := Except.ok.inj finished
          exact .nil
      | inClass architecture parent position =>
          rcases bind_eq_ok_iff.1 finished with ⟨closed, left, equal⟩
          obtain rfl := Except.ok.inj equal
          obtain ⟨given, gives, rfl⟩ := exists_gives_of_leave left
          exact ⟨given, [], [], gives, .nil, .nil, by simp⟩
      | _ => cases finished
  | line stepped others ih =>
      rw [List.append_assoc]
      exact rest_step stepped (ih finished)

end scope

/-- A dump that is read gives one class for each of its classes that is not built in and has a
method with code. The methods of a class are those of its range that have code, in order, and all
that is known of a method comes from the line that opens it and the lines up to the next one that
opens a method or a class. -/
theorem givesDump_of_read {text : Text} {classes : List Class}
    (accepted : read text = .ok classes) : GivesDump (Text.lines text) classes := by
  rcases Machine.read_eq_ok_iff.1 accepted with ⟨completed, final, last, reading, finished, rfl⟩
  exact rest_of_reading reading finished

/-- A class of three methods, of which the second one has no code, and a class that is built in. -/
def trioLines : List Text :=
  ["INSTRUCTION SET:", "X86_64", "0: LTrio; (offset=0x1) (type_idx=1) -",
    " 0: void f() (dex_method_idx=7)", " DEX CODE:",
    " 0x0: 71 | invoke-static \x7b\x7d, void g() // m", " CODE: (size=6)", " 0x10: e8 call 0x20",
    " StackMap (dex_pc=0x0, r)", " 0x15: c3 ret",
    " 1: void g() (dex_method_idx=8)", " 2: void h() (dex_method_idx=9)", " DEX CODE:", " CODE:",
    "1: Lkotlin/A; (offset=0x2) (type_idx=2) -"]

def trioClasses : List Class :=
  [{ header := "class Trio"
     methods :=
       [{ header := "void f()", index := some 7, codeSize := some 6, isa := .x86_64
          instructions :=
            [{ Instruction.ofCode 0x10 "0x10" "call 0x20" none with callAddress := some 0 },
             Instruction.ofCode 0x15 "0x15" "ret" none]
          references := NatMap.empty.insert 0 "g()" },
        { header := "void h()", index := some 9, codeSize := none, isa := .x86_64
          instructions := [], references := .empty }] }]

theorem read_trioLines : read (unlines trioLines) = .ok trioClasses := by
  -- The kernel is slow at taking strings apart, so that is done before.
  unfold trioLines trioClasses
  repeat rewrite [String.toList_ofList]
  decide +kernel

theorem givesDump_of_read_trioLines :
    read (unlines trioLines) = .ok trioClasses ∧
      GivesDump (Text.lines (unlines trioLines)) trioClasses :=
  ⟨read_trioLines, givesDump_of_read read_trioLines⟩

end CompiledViews.Dump.Oatdump
