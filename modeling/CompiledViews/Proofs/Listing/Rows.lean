import CompiledViews.Dump.Content
import CompiledViews.Proofs.Dump.Dexdump.OneLine
import CompiledViews.Proofs.Dump.Javap.OneLine
import CompiledViews.Proofs.Dump.Oatdump.OneLine
import CompiledViews.Proofs.Listing.Jumps
import CompiledViews.Proofs.Text.Printable

/-!
# Rows of a listing

The text of a listing has one row for each thing that it shows, and a builder counts its lines
without ever looking at the text. As no text of a class that a dump gives holds a line feed, cutting
the listing at line feeds gives the rows back, so that a number the builder has counted is the
number of a row: the maps of the listing speak of rows of instructions only.
-/

namespace CompiledViews

namespace BranchCount

/-- Before and after the first return together, every branch is counted. -/
theorem total_ofMethod (method : Method) :
    (ofMethod method).total = method.instructions.countP (method.isa.isBranch ·.op) := by
  suffices ∀ (instructions : List Instruction) (state : BranchCount × Bool),
      (instructions.foldl (addInstruction method.isa) state).1.total =
        state.1.total + instructions.countP (method.isa.isBranch ·.op) by
    simpa [ofMethod, total] using this method.instructions (⟨0, 0⟩, false)
  intro instructions
  induction instructions with
  | nil => simp
  | cons instruction instructions ih =>
      intro state
      rw [List.foldl_cons, ih, List.countP_cons]
      rcases state with ⟨⟨hot, cold⟩, returned⟩
      cases branch : method.isa.isBranch instruction.op <;> cases returned <;>
        simp only [addInstruction, total, branch, if_true, if_false, Bool.false_eq_true] <;> omega

end BranchCount

namespace Listing

open Text

theorem branchSummary?_eq_none_iff (method : Method) :
    branchSummary? method = none ↔ ¬method.instructions.any (method.isa.isBranch ·.op) := by
  simp only [branchSummary?, BranchCount.total_ofMethod]
  by_cases branches : method.instructions.any (method.isa.isBranch ·.op)
  · have counted : method.instructions.countP (method.isa.isBranch ·.op) ≠ 0 := by
      simpa [List.countP_eq_zero] using branches
    simp only [counted, branches, if_false]
    split <;> simp
  · have counted : method.instructions.countP (method.isa.isBranch ·.op) = 0 := by
      simpa [List.countP_eq_zero] using branches
    simp [counted, branches]

theorem counted_isPrintable (count : Nat) {noun ending : Text} (nounPrintable : noun.IsPrintable)
    (endingPrintable : ending.IsPrintable) : (counted count noun ending).IsPrintable := by
  unfold counted
  split <;> simp [nounPrintable, endingPrintable]

theorem instructionSummary_isPrintable (method : Method) :
    (instructionSummary method).IsPrintable := by
  unfold instructionSummary
  cases method.codeSize <;> simp [counted_isPrintable]

theorem branchSummary?_isPrintable (method : Method) :
    ((branchSummary? method).getD []).IsPrintable := by
  simp only [branchSummary?]
  split
  · simp
  · split <;> simp [counted_isPrintable]

theorem lineNumberColumn_isPrintable (style : Style) (lineNumber : Option Nat) :
    (lineNumberColumn style lineNumber).IsPrintable := by
  unfold lineNumberColumn
  cases lineNumber <;> split <;> simp

theorem instructionLine_singleLine {style : Style} {instruction : Instruction}
    {callee : Option Text} (inOneLine : instruction.InOneLine)
    (calleeSingle : ∀ name ∈ callee, name.SingleLine) :
    (instructionLine style instruction callee).SingleLine := by
  have column := (lineNumberColumn_isPrintable style instruction.lineNumber).singleLine
  have shown : instruction.shown.SingleLine := by
    unfold Instruction.shown
    split <;> simp [inOneLine.label, inOneLine.op, inOneLine.operands]
  have arrow : (callArrow callee).SingleLine := by
    cases callee with
    | none => simp [callArrow]
    | some name => simp [callArrow, calleeSingle name rfl]
  simp [instructionLine, column, shown, arrow]

/-- The names of callees come from the references of the methods. -/
theorem callee?_singleLine {classes : List Class} (inOneLine : ∀ cls ∈ classes, cls.InOneLine)
    {method : Method} (methodInOneLine : method.InOneLine) (instruction : Instruction) :
    ∀ name ∈ callee? (referencesByIndex classes) method instruction, name.SingleLine := by
  have byIndex : ∀ pair ∈ (referencesByIndex classes).pairs, ReferencesInOneLine pair.2 := by
    apply NatMap.of_mem_ofList
    intro pair member
    rcases List.mem_filterMap.1 member with ⟨other, isMethod, indexed⟩
    rcases Option.map_eq_some_iff.1 indexed with ⟨index, _, rfl⟩
    rcases List.mem_flatMap.1 isMethod with ⟨cls, inClasses, inClass⟩
    exact ((inOneLine cls inClasses).methods other inClass).references
  intro name isCallee
  rcases Option.bind_eq_some_iff.1 isCallee with ⟨address, _, isCallee⟩
  cases callMethod : instruction.callMethod with
  | none =>
      simp only [callMethod] at isCallee
      exact methodInOneLine.references.of_get? isCallee
  | some index =>
      simp only [callMethod] at isCallee
      rcases Option.bind_eq_some_iff.1 isCallee with ⟨references, found, isName⟩
      exact (byIndex (index, references) ((NatMap.mem_pairs_iff ..).2 found)).of_get? isName

/-- What a line of a listing shows. -/
inductive Row where
  | classHeader (header : Text)
  | methodHeader (method : Method)
  | instructionSummary (method : Method)
  | branchSummary (method : Method)
  | instruction (instruction : Instruction) (callee : Option Text)
  | blank
deriving DecidableEq, Repr

namespace Row

/-- The text of a row. -/
def text (style : Style) : Row → Text
  | classHeader header => header
  | methodHeader method => spaces style.indent ++ method.header
  | instructionSummary method =>
    spaces (style.indent * 2) ++ "-- " ++ Listing.instructionSummary method
  | branchSummary method =>
    spaces (style.indent * 2) ++ "-- " ++ (branchSummary? method).getD []
  | instruction shown callee => instructionLine style shown callee
  | blank => []

/-- The row about the branches of a method, if it has any. -/
def ofBranches (method : Method) : List Row :=
  if method.instructions.any (method.isa.isBranch ·.op) then [branchSummary method] else []

/-- The rows of a method. -/
def ofMethod (byIndex : NatMap (NatMap Text)) (method : Method) : List Row :=
  [methodHeader method, instructionSummary method] ++ ofBranches method ++
    method.instructions.map (fun shown => instruction shown (callee? byIndex method shown)) ++
    [blank]

/-- The rows of a class. -/
def ofClass (byIndex : NatMap (NatMap Text)) (cls : Class) : List Row :=
  classHeader cls.header :: cls.methods.flatMap (ofMethod byIndex)

/-- The rows of classes. -/
def ofClasses (classes : List Class) : List Row :=
  classes.flatMap (ofClass (referencesByIndex classes))

/-- The rows that a call writes. -/
def ofCall : Call → List Row
  | .startClass header => [classHeader header]
  | .startMethod method => [methodHeader method, instructionSummary method] ++ ofBranches method
  | .addInstruction shown callee => [instruction shown callee]
  | .endMethod => [blank]

theorem flatMap_ofMethod (byIndex : NatMap (NatMap Text)) (method : Method) :
    (Call.ofMethod byIndex method).flatMap ofCall = ofMethod byIndex method := by
  have instructions : (Call.ofInstructions byIndex method).flatMap ofCall =
      method.instructions.map fun shown => instruction shown (callee? byIndex method shown) := by
    rw [Call.ofInstructions, List.flatMap_map]
    simp only [ofCall, ← List.map_eq_flatMap]
  rw [Call.ofMethod, List.flatMap_cons, List.flatMap_append, instructions, ofMethod]
  simp [ofCall]

theorem flatMap_ofClass (byIndex : NatMap (NatMap Text)) (cls : Class) :
    (Call.ofClass byIndex cls).flatMap ofCall = ofClass byIndex cls := by
  simp only [Call.ofClass, List.flatMap_cons, List.flatMap_assoc, flatMap_ofMethod, ofCall,
    ofClass, List.singleton_append]

theorem flatMap_ofClasses (classes : List Class) :
    (Call.ofClasses classes).flatMap ofCall = ofClasses classes := by
  simp only [Call.ofClasses, List.flatMap_assoc, flatMap_ofClass, ofClasses]

/-- The lines of a call are the texts of its rows. -/
theorem lines_eq_map (style : Style) (call : Call) :
    call.lines style = (ofCall call).map (text style) := by
  cases call with
  | startMethod method =>
      have noBranches := branchSummary?_eq_none_iff method
      simp only [Call.lines, methodLines, ofCall, ofBranches]
      cases summary : branchSummary? method with
      | none => simp [noBranches.1 summary, text]
      | some shown =>
          have branches : method.instructions.any (method.isa.isBranch ·.op) := by
            by_contra none
            simp [noBranches.2 none] at summary
          simp [branches, text, summary]
  | _ => rfl

/-- The lines of a listing are the texts of its rows. -/
theorem allLines_ofClasses (style : Style) (classes : List Class) :
    Call.allLines style (Call.ofClasses classes) = (ofClasses classes).map (text style) := by
  have lines : Call.lines style = fun call => (ofCall call).map (text style) :=
    funext (lines_eq_map style)
  rw [Call.allLines, lines, ← flatMap_ofClasses, List.map_flatMap]

/-- Calls have as many rows as lines. -/
theorem length_flatMap_ofCall (style : Style) (calls : List Call) :
    (calls.flatMap ofCall).length = Call.lineAfter style calls := by
  simp [Call.lineAfter, Call.allLines, List.length_flatMap, lines_eq_map]

/-- A call places an instruction on the line whose number its row has. -/
theorem getElem?_of_call (style : Style) {calls before after : List Call}
    {shown : Instruction} {callee : Option Text}
    (split : calls = before ++ .addInstruction shown callee :: after) :
    (calls.flatMap ofCall)[Call.lineAfter style before]? = some (instruction shown callee) := by
  rw [split, ← length_flatMap_ofCall style before]
  simp [ofCall]

theorem singleLine_text {style : Style} {classes : List Class}
    (inOneLine : ∀ cls ∈ classes, cls.InOneLine) :
    ∀ row ∈ ofClasses classes, (row.text style).SingleLine := by
  intro row member
  rcases List.mem_flatMap.1 member with ⟨cls, inClasses, rowOfClass⟩
  rcases List.mem_cons.1 rowOfClass with rfl | rowOfMethods
  · exact (inOneLine cls inClasses).header
  · rcases List.mem_flatMap.1 rowOfMethods with ⟨method, inClass, rowOfMethod⟩
    have methodInOneLine := (inOneLine cls inClasses).methods method inClass
    simp only [ofMethod, ofBranches, List.mem_append, List.mem_cons, List.not_mem_nil, or_false,
      List.mem_map, List.mem_ite_nil_right] at rowOfMethod
    rcases rowOfMethod with (((rfl | rfl) | ⟨_, rfl⟩) | ⟨shown, inMethod, rfl⟩) | rfl
    · simpa [text] using methodInOneLine.header
    · simp [text, (instructionSummary_isPrintable _).singleLine]
    · simp [text, (branchSummary?_isPrintable _).singleLine]
    · apply instructionLine_singleLine (methodInOneLine.instructions shown inMethod)
      exact callee?_singleLine inOneLine methodInOneLine shown
    · exact .nil

end Row

/-- Cutting a listing at line feeds gives the texts of its rows, and then the empty text that
follows the last line feed. -/
theorem splitAll_text_ofClasses {classes : List Class}
    (inOneLine : ∀ cls ∈ classes, cls.InOneLine) (style : Style) :
    splitAll '\n' (ofClasses classes style).text =
      (Row.ofClasses classes).map (Row.text style) ++ [[]] := by
  have text_eq : (ofClasses classes style).text =
      unlines ((Row.ofClasses classes).map (Row.text style)) := by
    have lines := Builder.written_performAll (Builder.new style) (Call.ofClasses classes)
    rw [ofClasses_eq_build, ← Row.allLines_ofClasses]
    exact congrArg unlines lines
  rw [text_eq]
  apply SingleLine.splitAll_unlines
  intro line isLine
  rcases List.mem_map.1 isLine with ⟨row, isRow, rfl⟩
  exact Row.singleLine_text inOneLine row isRow

/-- A line of a listing that is cut at line feeds is the text of its row. -/
theorem getElem?_splitAll_text {classes : List Class} (inOneLine : ∀ cls ∈ classes, cls.InOneLine)
    (style : Style) {line : Nat} {row : Row} (isRow : (Row.ofClasses classes)[line]? = some row) :
    (splitAll '\n' (ofClasses classes style).text)[line]? = some (row.text style) := by
  have within := (List.getElem?_eq_some_iff.1 isRow).1
  rw [splitAll_text_ofClasses inOneLine, List.getElem?_append_left (by simpa using within),
    List.getElem?_map, isRow, Option.map_some]

/-- A line of the listing of classes is about an instruction. -/
def ShowsInstruction (classes : List Class) (line : Nat) : Prop :=
  ∃ shown callee, (Row.ofClasses classes)[line]? = some (.instruction shown callee)

theorem ShowsInstruction.of_placed {style : Style} {classes : List Class} {line : Nat}
    {instruction : Instruction}
    (placed : (line, instruction) ∈ Call.placements style 0 (Call.ofClasses classes)) :
    ShowsInstruction classes line := by
  rcases Call.mem_placements_iff.1 placed with ⟨before, callee, after, split, rfl⟩
  have row := Row.getElem?_of_call style split
  rw [Row.flatMap_ofClasses] at row
  exact ⟨instruction, callee, by rwa [Nat.zero_add]⟩

/-- Cutting the listing of an accepted dump at line feeds gives the texts of its rows, and then the
empty text that follows the last line feed. The line at which the builder adds an instruction is the
line that shows it, and whatever the maps of the listing give as a line of code shows an
instruction. -/
theorem rows_of_read {format : Dump.Format} {dump : Text} {classes : List Class}
    (accepted : format.read dump = .ok classes) (style : Style) :
    splitAll '\n' (ofClasses classes style).text =
        (Row.ofClasses classes).map (Row.text style) ++ [[]] ∧
      (∀ before shown callee after,
        Call.ofClasses classes = before ++ .addInstruction shown callee :: after →
          (Row.ofClasses classes)[((Builder.new style).performAll before).line]? =
              some (.instruction shown callee) ∧
            (splitAll '\n' (ofClasses classes style).text)[
                ((Builder.new style).performAll before).line]? =
              some (instructionLine style shown callee)) ∧
      (∀ line target, (line, target) ∈ (ofClasses classes style).jumps.pairs →
        ShowsInstruction classes line ∧ ShowsInstruction classes target) ∧
      (∀ sourceLine line, (sourceLine, line) ∈ (ofClasses classes style).sourceToCode.pairs →
        ShowsInstruction classes line) ∧
      ∀ line sourceLine, (line, sourceLine) ∈ (ofClasses classes style).codeToSource.pairs →
        ShowsInstruction classes line := by
  have inOneLine : ∀ cls ∈ classes, cls.InOneLine := by
    cases format with
    | javap => exact Dump.Javap.read_inOneLine accepted
    | dexdump => exact Dump.Dexdump.read_inOneLine accepted
    | oatdump => exact Dump.Oatdump.read_inOneLine accepted
  have cut := splitAll_text_ofClasses inOneLine style
  refine ⟨cut, fun before shown callee after split => ?_, fun line target pair => ?_,
    fun sourceLine line pair => ?_, fun line sourceLine pair => ?_⟩
  · have row := Row.getElem?_of_call style split
    rw [Row.flatMap_ofClasses, ← Builder.line_performAll_new] at row
    exact ⟨row, getElem?_splitAll_text inOneLine style row⟩
  · rw [ofClasses_eq_build] at pair
    rcases OpenSegment.exists_of_calls (Call.ofClasses classes) with ⟨before, segment, isOpen⟩
    have jump := ((Builder.tracks_and_get?_jumps style isOpen).2 line target).1
      ((NatMap.mem_pairs_iff ..).1 pair)
    rcases jump.placed with ⟨⟨_, fromPlaced⟩, _, toPlaced⟩
    exact ⟨.of_placed fromPlaced, .of_placed toPlaced⟩
  · rw [ofClasses_eq_build] at pair
    have found := (NatMap.mem_pairs_iff ..).1 pair
    rcases exists_of_lastLine?
      ((Builder.get?_sourceToCode_performAll style _ sourceLine).symm.trans found) with
      ⟨_, placed, _⟩
    exact .of_placed placed
  · rw [ofClasses_eq_build] at pair
    rcases Builder.placed_of_get?_codeToSource ((NatMap.mem_pairs_iff ..).1 pair) with ⟨_, placed⟩
    exact .of_placed placed

/-- A dump of a class with an endless loop. -/
def loopDump : Text :=
  "final class Loop \x7b\n  void run();\n    Code:\n       0: goto 0\n    LineNumberTable:\n" ++
    "      line 3: 0\n\x7d\n"

/-- The class with the endless loop. -/
def loopClasses : List Class :=
  [{ header := "final class Loop"
     methods :=
       [{ header := "void run()", index := none, codeSize := none, isa := .byteCode
          instructions :=
            [{ address := 0, label := "0", op := "goto", operands := "0", jumpAddress := some 0
               callAddress := none, callMethod := none, lineNumber := some 3 }]
          references := .empty }] }]

theorem read_loopDump : Dump.Format.javap.read loopDump = .ok loopClasses := by
  -- The kernel is slow at taking strings apart, so that is done before.
  unfold loopDump loopClasses
  repeat rewrite [String.toList_ofList]
  decide

theorem rows_of_read_loop :
    Dump.Format.javap.read loopDump = .ok loopClasses ∧
      splitAll '\n' (ofClasses loopClasses .default).text =
        (["final class Loop", "    void run()", "        -- 1 instruction",
          "        -- 1 branch", "        3:    0: goto 0", "", ""] : List String).map
            String.toList ∧
      (4, 4) ∈ (ofClasses loopClasses .default).jumps.pairs ∧ ShowsInstruction loopClasses 4 := by
  have jumps : (4, 4) ∈ (ofClasses loopClasses .default).jumps.pairs := by decide
  rcases rows_of_read read_loopDump .default with ⟨cut, _, ofJumps, _⟩
  exact ⟨read_loopDump, cut.trans (by decide), jumps, (ofJumps 4 4 jumps).1⟩

end Listing

end CompiledViews
