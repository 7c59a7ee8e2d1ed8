import CompiledViews.Proofs.Dump.Oatdump.Callees
import CompiledViews.Proofs.Dump.Oatdump.OwnLines
import CompiledViews.Proofs.Listing.Rows
import CompiledViews.Proofs.Text.Lines

/-!
# Arrows of a listing

The row of a line of native code is the line's own text with an arrow behind it where the line calls
a method whose name the dump lets be known. The table of references by index that a listing is
written with is that of the methods that the dump keeps, so the name is the one that the dump itself
gives. A listing writes an arrow nowhere else, but it takes texts from the dump as they are: only
where a dump holds no arrow does each arrow of its listing stand for a call.
-/

namespace CompiledViews.Listing

open Text Text.Form Dump Dump.Oatdump

section callee

variable {architecture : Architecture} {kept : List MethodRange} {classes : List Class}

/-- The references that a listing has for an index are those of the last method with it. -/
theorem rel_referencesByIndex
    (gives : List.Forall₂ (GivesMethod architecture) kept (classes.flatMap (·.methods)))
    (index : Nat) :
    Option.Rel (fun range references => ∀ address, references.get? address = invoked? range address)
      (withIndex? kept index) ((referencesByIndex classes).get? index) := by
  rw [withIndex?, referencesByIndex, NatMap.get?_ofList]
  refine NatMap.rel_lookup (List.rel_reverse (List.rel_filterMap ?_ gives)) index
  intro range method ofMethod
  obtain ⟨own, isIndex, hasIndex⟩ := ofMethod.index
  simp only [isIndex, hasIndex, Option.map_some]
  exact .some ⟨rfl, ofMethod.get?_references⟩

/-- A listing finds the callee that the dump gives a line of native code. -/
theorem callee?_eq_calleeOf
    (gives : List.Forall₂ (GivesMethod architecture) kept (classes.flatMap (·.methods)))
    {range : MethodRange} {method : Method} {line : CodeRange} {instruction : Instruction}
    (ofMethod : GivesMethod architecture range method)
    (shows : Shows architecture line instruction) :
    callee? (referencesByIndex classes) method instruction =
      calleeOf architecture kept range line := by
  cases shows with
  | @plain address code below key target noCall isKey leads =>
      have noCallee : calleeOf architecture kept range ((address, code), below) = none := by
        rw [calleeOf]
        split
        case isTrue isCall =>
          cases isHead : below.head? with
          | none => rfl
          | some map =>
              have noMap := noCall isCall map isHead
              rw [accepts, Option.isSome_eq_false_iff, Option.isNone_iff_eq_none] at noMap
              simp [noMap]
        case isFalse _ => rfl
      exact noCallee.symm
  | @mapped address code map pc below key callAddress isCall isMap isKey isAddress noInfo =>
      have noInline : below.head?.bind inlineInfoLine.first? = none :=
        Option.bind_eq_none_iff.2 fun line isHead => by
          simpa [accepts] using noInfo line isHead
      have own : callee? (referencesByIndex classes) method
          { Instruction.ofCode key ("0x" ++ address) code none with
            callAddress := some callAddress } = method.references.get? callAddress := rfl
      rw [own, ofMethod.get?_references]
      simp [calleeOf, isCall, isMap, noInline, isAddress]
  | @inlined address code map pc info inlinedPc index below key callAddress callMethod isCall isMap
      isInfo isKey isAddress isMethod =>
      have other : callee? (referencesByIndex classes) method
          { Instruction.ofCode key ("0x" ++ address) code none with
            callAddress := some callAddress, callMethod := some callMethod } =
          ((referencesByIndex classes).get? callMethod).bind (·.get? callAddress) := rfl
      have sameTable : ((referencesByIndex classes).get? callMethod).bind (·.get? callAddress) =
          (withIndex? kept callMethod).bind (invoked? · callAddress) := by
        have related := rel_referencesByIndex gives callMethod
        generalize withIndex? kept callMethod = range, (referencesByIndex classes).get? callMethod =
          references at related ⊢
        cases related with
        | none => rfl
        | some agree => exact agree callAddress
      rw [other, sameTable]
      simp [calleeOf, isCall, isMap, isInfo, isAddress, isMethod]

end callee

namespace Row

/-- Whether a row shows an instruction. -/
def isCode : Row → Bool
  | instruction .. => true
  | _ => false

theorem filter_isCode_ofMethod (byIndex : NatMap (NatMap Text)) (method : Method) :
    (ofMethod byIndex method).filter isCode =
      method.instructions.map fun shown => instruction shown (callee? byIndex method shown) := by
  have noBranches : (ofBranches method).filter isCode = [] := by
    unfold ofBranches
    split <;> rfl
  have instructions : (method.instructions.map fun shown =>
      instruction shown (callee? byIndex method shown)).filter isCode =
        method.instructions.map fun shown => instruction shown (callee? byIndex method shown) := by
    simp [List.filter_eq_self, isCode]
  rw [ofMethod, List.filter_append, List.filter_append, List.filter_append, noBranches,
    instructions]
  simp [isCode]

/-- The rows of instructions are those of the methods, in order. -/
theorem filter_isCode_ofClasses (classes : List Class) :
    (ofClasses classes).filter isCode = (classes.flatMap (·.methods)).flatMap fun method =>
      method.instructions.map fun shown =>
        instruction shown (callee? (referencesByIndex classes) method shown) := by
  have ofClass_eq (cls : Class) : (ofClass (referencesByIndex classes) cls).filter isCode =
      cls.methods.flatMap fun method => method.instructions.map fun shown =>
        instruction shown (callee? (referencesByIndex classes) method shown) := by
    simp only [ofClass, List.filter_cons, isCode, Bool.false_eq_true, if_false, List.filter_flatMap,
      filter_isCode_ofMethod]
  rw [ofClasses, List.filter_flatMap, List.flatMap_assoc]
  simp only [ofClass_eq]

end Row

/-- A line of native code and its row: the row shows the instruction of the line, and the text of
the row is that of the instruction with an arrow to what the line calls, if it calls anything. -/
def ShowsLine (architecture : Architecture) (kept : List MethodRange) (style : Style)
    (line : MethodRange × CodeRange) (row : Row) : Prop :=
  ∃ instruction, Shows architecture line.2 instruction ∧
    row = .instruction instruction (calleeOf architecture kept line.1 line.2) ∧
    row.text style = instructionLine style instruction none ++
      callArrow (calleeOf architecture kept line.1 line.2)

/-- The lines of native code are shown by the rows of instructions, in order. -/
theorem forall₂_showsLine {architecture : Architecture} {kept : List MethodRange}
    {classes : List Class}
    (gives : List.Forall₂ (GivesMethod architecture) kept (classes.flatMap (·.methods)))
    (style : Style) :
    List.Forall₂ (ShowsLine architecture kept style) (nativeLines kept)
      ((Row.ofClasses classes).filter Row.isCode) := by
  rw [Row.filter_isCode_ofClasses]
  refine List.rel_flatMap gives fun range method ofMethod => ?_
  rw [List.forall₂_map_left_iff, List.forall₂_map_right_iff]
  refine ofMethod.nativeCode.imp fun line instruction shows => ⟨instruction, shows, ?_⟩
  rw [callee?_eq_calleeOf gives ofMethod shows]
  exact ⟨rfl, by simp [Row.text, instructionLine, callArrow]⟩

/-- The rows of a listing end in an arrow with a name exactly where they show a line of native code
that calls a method of that name, and no other row holds an arrow. -/
structure ArrowsTell (architecture : Architecture) (kept : List MethodRange) (style : Style)
    (rows : List Row) : Prop where
  ofCode : List.Forall₂ (fun line row => ∀ name, callArrow (some name) <:+ row.text style ↔
      calleeOf architecture kept line.1 line.2 = some name)
    (nativeLines kept) (rows.filter Row.isCode)
  others : ∀ row ∈ rows, row.isCode = false → '→' ∉ row.text style

section arrow

/-! ### Where a text holds an arrow -/

/-- A text that ends in the arrow of a call has been given it, if neither the text itself nor the
name of what is called holds an arrow. -/
theorem callArrow_isSuffix_iff {own : Text} {callee : Option Text} (noArrow : '→' ∉ own)
    (noArrowInName : ∀ name ∈ callee, '→' ∉ name) (name : Text) :
    callArrow (some name) <:+ own ++ callArrow callee ↔ callee = some name := by
  constructor
  · rintro ⟨front, equal⟩
    cases callee with
    | none =>
        have isOwn : own = front ++ callArrow (some name) := by simpa [callArrow] using equal.symm
        exact absurd (by simp [isOwn, callArrow]) noArrow
    | some other =>
        -- the right side holds one arrow, so the arrows of both sides are the same one
        have inName := noArrowInName other rfl
        have split : (own ++ [' ', ' ']) ++ '→' :: (' ' :: other) =
            (front ++ [' ', ' ']) ++ '→' :: (' ' :: name) := by
          simpa [callArrow] using equal.symm
        have cut := (List.append_cons_inj_of_notMem (by simpa using noArrow)
          (by simpa using inName)).1 split
        simpa using cut.2.2
  · rintro rfl
    exact List.suffix_append ..

/-- The own text of an instruction holds an arrow only where its address or its code does. -/
theorem arrow_notMem_instructionLine {architecture : Architecture} {line : CodeRange}
    {instruction : Instruction} (shows : Shows architecture line instruction) (style : Style)
    (noAddress : '→' ∉ line.1.1) (noCode : '→' ∉ line.1.2) :
    '→' ∉ instructionLine style instruction none := by
  obtain ⟨label, op, operands⟩ : instruction.label = "0x" ++ line.1.1 ∧
      instruction.op = (Instruction.splitCode line.1.2).1 ∧
      instruction.operands = (Instruction.splitCode line.1.2).2 := by
    cases shows <;> exact ⟨rfl, rfl, rfl⟩
  have parts := Instruction.splitCode_isInfix line.1.2
  have noOp : '→' ∉ instruction.op := fun member => noCode (parts.1.subset (op ▸ member))
  have noOperands : '→' ∉ instruction.operands :=
    fun member => noCode (parts.2.subset (operands ▸ member))
  have noLabel : '→' ∉ instruction.label := by simpa [label] using noAddress
  have noShown : '→' ∉ instruction.shown := by
    unfold Instruction.shown
    split <;> simp [noLabel, noOp, noOperands]
  have noSpace : '→' ∉ spaces (style.indent * 2) := (IsPrintable.spaces _).notMem (by decide)
  have noColumn : '→' ∉ lineNumberColumn style instruction.lineNumber :=
    (lineNumberColumn_isPrintable style _).notMem (by decide)
  simp [instructionLine, callArrow, noSpace, noColumn, noShown]

/-- Of the rows that show no instruction only headers can hold an arrow. -/
theorem Row.arrow_mem_header {style : Style} {classes : List Class} {row : Row}
    (member : row ∈ ofClasses classes) (noCode : row.isCode = false)
    (inText : '→' ∈ row.text style) :
    (∃ cls ∈ classes, '→' ∈ cls.header) ∨
      ∃ method ∈ classes.flatMap (·.methods), '→' ∈ method.header := by
  have noSpace (count : Nat) : '→' ∉ spaces count := (IsPrintable.spaces _).notMem (by decide)
  obtain ⟨cls, inClasses, ofClass⟩ := List.mem_flatMap.1 member
  rcases List.mem_cons.1 ofClass with rfl | ofMethods
  · exact .inl ⟨cls, inClasses, inText⟩
  · obtain ⟨method, inClass, ofMethod⟩ := List.mem_flatMap.1 ofMethods
    refine .inr ⟨method, List.mem_flatMap.2 ⟨cls, inClasses, inClass⟩, ?_⟩
    simp only [Row.ofMethod, ofBranches, List.mem_append, List.mem_cons, List.not_mem_nil, or_false,
      List.mem_map, List.mem_ite_nil_right] at ofMethod
    rcases ofMethod with (((rfl | rfl) | ⟨_, rfl⟩) | ⟨shown, inMethod, rfl⟩) | rfl
    · simpa [text, noSpace] using inText
    · have noSummary : '→' ∉ Listing.instructionSummary method :=
        (instructionSummary_isPrintable method).notMem (by decide)
      simp [text, noSpace, noSummary] at inText
    · have noSummary : '→' ∉ (branchSummary? method).getD [] :=
        (branchSummary?_isPrintable method).notMem (by decide)
      simp [text, noSpace, noSummary] at inText
    · cases noCode
    · cases inText

end arrow

section dump

/-! ### Where the dump holds no arrow -/

variable {architecture : Architecture} {lines body : List Text} {classes : List Class}

/-- A header that holds an arrow is on a line that opens a class or a method and holds one. -/
theorem exists_isBoundary_of_header (gives : GivesClasses architecture body classes)
    (inHeader : (∃ cls ∈ classes, '→' ∈ cls.header) ∨
      ∃ method ∈ classes.flatMap (·.methods), '→' ∈ method.header) :
    ∃ line ∈ body, isBoundary line = true ∧ '→' ∈ line := by
  rcases inHeader with ⟨cls, inClasses, inHeader⟩ | ⟨method, inMethods, inHeader⟩
  · obtain ⟨range, isKept, ofClass⟩ := exists_of_mem_right gives inClasses
    obtain ⟨⟨line, isLine, opens⟩, -⟩ := of_mem_ranges (List.mem_filter.1 isKept).1
    have inName : '→' ∈ range.1 := by
      have inDotted : '→' ∈ replaceChar '/' '.' range.1 := by simpa [ofClass.header] using inHeader
      exact (of_mem_replaceChar inDotted).resolve_left (by decide)
    exact ⟨line, isLine, by simp [isBoundary, accepts, opens],
      (classLine_reads.first? List.infix_rfl opens).subset inName⟩
  · obtain ⟨range, isKept, ofMethod⟩ := exists_of_mem_right gives.keptMethods inMethods
    obtain ⟨⟨line, isLine, opens⟩, -⟩ := of_mem_keptMethods isKept
    exact ⟨line, isLine, by simp [isBoundary, accepts, opens],
      (methodLine_reads.first? List.infix_rfl opens).1.subset (ofMethod.header ▸ inHeader)⟩

/-- Where no line holds an arrow, the text of a line of native code ends in one exactly where it
calls a method of that name. -/
theorem ShowsLine.callArrow_isSuffix_iff {style : Style} {line : MethodRange × CodeRange}
    {row : Row} (shows : ShowsLine architecture (keptMethods body) style line row)
    (member : line ∈ nativeLines (keptMethods body)) (noArrow : ∀ other ∈ body, '→' ∉ other)
    (name : Text) : callArrow (some name) <:+ row.text style ↔
      calleeOf architecture (keptMethods body) line.1 line.2 = some name := by
  have absent {text : Text} (isPart : IsPartOfLine body text) : '→' ∉ text := by
    obtain ⟨other, isLine, inOther⟩ := isPart
    exact fun inText => noArrow other isLine (inOther.subset inText)
  obtain ⟨isKept, isNative⟩ := of_mem_nativeLines member
  obtain ⟨address, code⟩ := isPartOfLine_of_nativeCode isNative
  obtain ⟨instruction, ofLine, -, isText⟩ := shows
  have inBody := (of_mem_keptMethods isKept).2
  rw [isText, Listing.callArrow_isSuffix_iff]
  · exact arrow_notMem_instructionLine ofLine style (absent (address.mono inBody))
      (absent (code.mono inBody))
  · exact fun callee calls => absent (isPartOfLine_of_calleeOf isKept calls)

end dump

/-- The arrows in the listing of a dump that is read. Each line of native code of a method that is
kept has a row, whose text is the line's own and then the arrow to what the line calls, if it calls
anything; in the other rows there are arrows only where the dump has one on a line that opens a
class or a method. If the dump holds no arrow at all, a row of the listing ends in an arrow with a
name exactly where it shows a line that calls a method of that name. -/
theorem arrows_of_read {dump : Text} {classes : List Class}
    (accepted : Dump.Oatdump.read dump = .ok classes) (style : Style) :
    ∃ architecture body, body? (Text.lines dump) = some (architecture, body) ∧
      splitAll '\n' (ofClasses classes style).text =
        (Row.ofClasses classes).map (Row.text style) ++ [[]] ∧
      List.Forall₂ (ShowsLine architecture (keptMethods body) style)
        (nativeLines (keptMethods body)) ((Row.ofClasses classes).filter Row.isCode) ∧
      (∀ row ∈ Row.ofClasses classes, row.isCode = false → '→' ∈ row.text style →
        ∃ line ∈ Text.lines dump, isBoundary line = true ∧ '→' ∈ line) ∧
      ('→' ∉ dump →
        ArrowsTell architecture (keptMethods body) style (Row.ofClasses classes)) := by
  obtain ⟨completed, final, last, reading, finished, rfl⟩ := Dump.Machine.read_eq_ok_iff.1 accepted
  have gives : GivesDump (Text.lines dump) (completed ++ last) := rest_of_reading reading finished
  obtain ⟨architecture, body, isBody, givesClasses⟩ := gives.body?
  have shown := forall₂_showsLine givesClasses.keptMethods style
  have fromHeader : ∀ row ∈ Row.ofClasses (completed ++ last), row.isCode = false →
      '→' ∈ row.text style → ∃ line ∈ Text.lines dump, isBoundary line = true ∧ '→' ∈ line := by
    intro row member noCode inText
    obtain ⟨line, inBody, opens⟩ :=
      exists_isBoundary_of_header givesClasses (Row.arrow_mem_header member noCode inText)
    exact ⟨line, subset_of_body? isBody inBody, opens⟩
  refine ⟨architecture, body, isBody,
    splitAll_text_ofClasses (Dump.Oatdump.read_inOneLine accepted) style, shown, fromHeader,
    fun noArrow => ?_⟩
  have noArrowInLine : ∀ line ∈ Text.lines dump, '→' ∉ line :=
    fun line isLine inLine => noArrow (subset_of_mem_lines isLine inLine)
  refine ⟨?_, fun row member noCode inText => ?_⟩
  · -- a line and its row do not say that the method of the line is kept, so that is added
    have members := (List.forall₂_and_left _ _).2 ⟨fun line member => member, shown⟩
    exact members.imp fun line row ofLine => ofLine.2.callArrow_isSuffix_iff ofLine.1
      fun other inBody => noArrowInLine other (subset_of_body? isBody inBody)
  · obtain ⟨line, isLine, -, inLine⟩ := fromHeader row member noCode inText
    exact noArrowInLine line isLine inLine

/-- A call of a method's own and an inlined one, whose callee is invoked in a class further down. -/
def inlinedLines : List Text :=
  ["INSTRUCTION SET:", "Arm64", "0: La/One; (offset=0x1) (type_idx=1) -",
    " 0: void f() (dex_method_idx=7)", " DEX CODE:",
    " 0x0: 71 | invoke-static \x7b\x7d, void g() // m", " CODE: (size=12)", " 0x10: d6 blr lr",
    " StackMap (dex_pc=0x0, r)", " 0x14: d6 blr lr", " StackMap (dex_pc=0x0, r)",
    " InlineInfo (dex_pc=0x2, method_index=9, r)", " 0x18: d6 ret",
    "1: La/Two; (offset=0x2) (type_idx=2) -", " 0: void h() (dex_method_idx=9)", " DEX CODE:",
    " 0x2: 71 | invoke-static \x7b\x7d, void k() // m", " CODE: (size=4)", " 0x20: d6 ret"]

def inlinedClasses : List Class :=
  [{ header := "class a.One"
     methods :=
       [{ header := "void f()", index := some 7, codeSize := some 12, isa := .aarch64
          instructions :=
            [{ Instruction.ofCode 0x10 "0x10" "blr lr" none with callAddress := some 0 },
             { Instruction.ofCode 0x14 "0x14" "blr lr" none with
               callAddress := some 2, callMethod := some 9 },
             Instruction.ofCode 0x18 "0x18" "ret" none]
          references := NatMap.empty.insert 0 "g()" }] },
   { header := "class a.Two"
     methods :=
       [{ header := "void h()", index := some 9, codeSize := some 4, isa := .aarch64
          instructions := [Instruction.ofCode 0x20 "0x20" "ret" none]
          references := NatMap.empty.insert 2 "k()" }] }]

theorem arrows_of_read_inlinedLines :
    Dump.Oatdump.read (unlines inlinedLines) = .ok inlinedClasses ∧ '→' ∉ unlines inlinedLines ∧
      (((Row.ofClasses inlinedClasses).filter Row.isCode).map (Row.text .default) =
        (["              0x10: blr lr  → g()", "              0x14: blr lr  → k()",
          "              0x18: ret", "              0x20: ret"] : List String).map
            String.toList) ∧
      ∃ architecture body,
        body? (Text.lines (unlines inlinedLines)) = some (architecture, body) ∧
          (nativeLines (keptMethods body)).map
              (fun line => calleeOf architecture (keptMethods body) line.1 line.2) =
            [some "g()".toList, some "k()".toList, none, none] ∧
          ArrowsTell architecture (keptMethods body) .default (Row.ofClasses inlinedClasses) := by
  have accepted : Dump.Oatdump.read (unlines inlinedLines) = .ok inlinedClasses := by
    -- The kernel is slow at taking strings apart, so that is done before.
    unfold inlinedLines inlinedClasses
    repeat rewrite [String.toList_ofList]
    decide +kernel
  have noArrow : '→' ∉ unlines inlinedLines := by
    unfold inlinedLines
    repeat rewrite [String.toList_ofList]
    decide
  have known : body? (Text.lines (unlines inlinedLines)) =
      some (.arm64, inlinedLines.drop 2) := by
    unfold inlinedLines
    repeat rewrite [String.toList_ofList]
    decide
  have callees : (nativeLines (keptMethods (inlinedLines.drop 2))).map
      (fun line => calleeOf .arm64 (keptMethods (inlinedLines.drop 2)) line.1 line.2) =
        [some "g()".toList, some "k()".toList, none, none] := by
    unfold inlinedLines
    repeat rewrite [String.toList_ofList]
    decide +kernel
  obtain ⟨architecture, body, isBody, -, -, -, tells⟩ := arrows_of_read accepted .default
  obtain ⟨rfl, rfl⟩ := Prod.mk.inj (Option.some.inj (known.symm.trans isBody))
  exact ⟨accepted, noArrow, by decide, _, _, isBody, callees, tells noArrow⟩

/-- A line of code that holds an arrow and calls nothing. -/
def arrowLines : List Text :=
  ["INSTRUCTION SET:", "X86_64", "0: LA; (offset=0x1) (type_idx=1) -",
    " 0: void f() (dex_method_idx=7)", " DEX CODE:", " CODE: (size=6)", " 0x10: 90 nop x  → g"]

def arrowClasses : List Class :=
  [{ header := "class A"
     methods :=
       [{ header := "void f()", index := some 7, codeSize := some 6, isa := .x86_64
          instructions := [Instruction.ofCode 0x10 "0x10" "nop x  → g" none]
          references := .empty }] }]

/-- An arrow of the dump itself is shown as it is, and then it stands for no call. -/
theorem not_forall_arrowsTell :
    ¬∀ (dump : Text) (classes : List Class) (style : Style) (architecture : Architecture)
      (body : List Text), Dump.Oatdump.read dump = .ok classes →
      body? (Text.lines dump) = some (architecture, body) →
      ArrowsTell architecture (keptMethods body) style (Row.ofClasses classes) := by
  intro all
  have facts : Dump.Oatdump.read (unlines arrowLines) = .ok arrowClasses ∧
      body? (Text.lines (unlines arrowLines)) = some (.x86_64, arrowLines.drop 2) := by
    unfold arrowLines arrowClasses
    repeat rewrite [String.toList_ofList]
    decide
  have tells := (all (unlines arrowLines) arrowClasses .default .x86_64 (arrowLines.drop 2)
    facts.1 facts.2).ofCode
  have rows : (Row.ofClasses arrowClasses).filter Row.isCode =
      [.instruction (Instruction.ofCode 0x10 "0x10" "nop x  → g" none) none] := by decide
  rw [rows, List.forall₂_cons_right_iff] at tells
  obtain ⟨line, others, tellsOne, noOthers, isNative⟩ := tells
  have noCallee : ∀ line ∈ nativeLines (keptMethods (arrowLines.drop 2)),
      calleeOf .x86_64 (keptMethods (arrowLines.drop 2)) line.1 line.2 = none := by decide
  have calls := (tellsOne "g").1 (by decide +kernel)
  rw [noCallee line (by simp [isNative])] at calls
  cases calls

end CompiledViews.Listing
