import CompiledViews.Proofs.Dump.Oatdump.Printed

/-!
# Reading printed lines of `oatdump`

The reader finds the parts of each printed line, although it looks for the places where they meet
only. Most of these are found at once, since what follows a run of characters is no further one. Two
kinds need a second thought: a mark that is looked for from the end of the line, and the code of an
`X86_64` jump, where the last space does not stand before a sign.
-/

namespace CompiledViews.Dump.Oatdump

open Text Text.Form

theorem isBlank_of_isHexDigit (character : Char) (isDigit : isHexDigit character = true) :
    isBlank character = false := by
  by_contra blank
  rw [isHexDigit_of_isBlank (by simpa using blank)] at isDigit
  cases isDigit

theorem isHex_of_isRun {text : Text} (run : text.IsRun isHexDigit)
    (small : text.hexValue < wordLimit) : text.IsHex := ⟨run.1, run.2, small⟩

theorem isDecimal_of_isRun {text : Text} (run : text.IsRun Char.isDigit)
    (small : text.decimalValue < wordLimit) : text.IsDecimal := ⟨run.1, run.2, small⟩

theorem isRun_isDecimalDigit {text : Text} (run : text.IsRun Char.isDigit) :
    text.IsRun isDecimalDigit :=
  ⟨run.1, fun digit inText => isDecimalDigit_of_isDigit (run.2 digit inText)⟩

/-- A mark is the last one if its first character is not found behind it. -/
theorem isLast_of_notMem {first : Char} {mark right : Text} (absent : first ∉ mark ++ right) :
    ¬first :: mark <:+: mark ++ right :=
  fun again => absent (again.subset List.mem_cons_self)

section lines

variable {architecture : Architecture}

/-! ### Lines that open classes and methods -/

theorem Block.IsPrinted.first?_classLine {block : Block} (printed : block.IsPrinted architecture)
    (single : block.opening.SingleLine) : classLine.first? block.opening = some block.path := by
  rcases printed with ⟨number, path, offset, typeIndex, status, -, -⟩
  simp only [opening, SingleLine.append_iff] at single
  rcases single with ⟨-, -, -, -, -, -, -, -, singleStatus⟩
  have reading : Prefers classLine block.opening block.path [] := by
    refine (Prefers.span1 number.1 number.2 (by rintro _ ⟨⟩; decide)).bind ?_
    refine (Prefers.literal ": L" _).bind ?_
    refine (Prefers.span1 path.1 path.2 (by rintro _ ⟨⟩; decide)).bind ?_
    refine (Prefers.literal "; (offset=0x" _).bind ?_
    refine (Prefers.span1 offset.1 offset.2 (by rintro _ ⟨⟩; decide)).bind ?_
    refine (Prefers.literal ") (type_idx=" _).bind ?_
    refine (Prefers.span1 typeIndex.1 typeIndex.2 (by rintro _ ⟨⟩; decide)).bind ?_
    refine (Prefers.literal ")" _).bind ?_
    exact (Prefers.something status singleStatus).bind (.pure block.path [])
  exact reading.first?

theorem Member.IsPrinted.first?_methodLine {member : Member}
    (printed : member.IsPrinted architecture) (single : member.opening.SingleLine) :
    methodLine.first? member.opening = some (member.declaration, member.index) := by
  rcases printed with ⟨margin, number, gap, declaration, index, -, -⟩
  simp only [opening, SingleLine.append_iff] at single
  rcases single with ⟨-, -, -, -, singleDeclaration, -⟩
  have singleBefore : (member.declaration ++ " ").SingleLine :=
    SingleLine.append_iff.2 ⟨singleDeclaration, by decide⟩
  have noBrace : '(' ∉ "dex_method_idx=" ++ (member.index ++ ")") := by
    simp [index.notMem]
  have readDeclaration : Prefers (anythingUpTo "(dex_method_idx=")
      (member.declaration ++ (" (dex_method_idx=" ++ (member.index ++ ")")))
      (member.declaration ++ " ") (member.index ++ ")") := by
    have split : member.declaration ++ (" (dex_method_idx=" ++ (member.index ++ ")")) =
      (member.declaration ++ " ") ++ ("(dex_method_idx=" ++ (member.index ++ ")")) := by simp
    rw [split]
    exact .upTo (anyInLine_of_mem singleBefore) (isLast_of_notMem noBrace)
  have isIndex := isRun_isDecimalDigit index
  have isDeclaration : beforeLastBlank? (member.declaration ++ " ") = some member.declaration :=
    beforeLastBlank?_concat (ne_nil_of_isFlush declaration) (by decide)
  have reading : Prefers methodLine member.opening (member.declaration, member.index) [] := by
    refine (Prefers.span1 margin.1 margin.2 (number.ends isBlank_of_isDecimalDigit _)).bind ?_
    refine (Prefers.span1 number.1 number.2 (by rintro _ ⟨⟩; decide)).bind ?_
    refine (Prefers.literal ":" _).bind ?_
    refine (Prefers.run1 gap.1 gap.2 (isBlank_of_isFlush declaration _)).bind ?_
    refine readDeclaration.bind ?_
    refine (Prefers.span1 isIndex.1 isIndex.2 (by rintro _ ⟨⟩; decide)).bind ?_
    refine (Prefers.literal_self ")").bind (Prefers.atEnd.bind ?_)
    rw [isDeclaration]
    exact (Prefers.given _ []).bind (.pure _ [])
  exact reading.first?

/-! ### Lines of DEX code -/

theorem Invocation.IsPrinted.first?_invocation {call : Invocation} (printed : call.IsPrinted)
    (single : call.code.SingleLine) : invocation.first? call.code = some call.name := by
  rcases printed with ⟨registers, typeGap, type, nameGap, name, comment, isLast⟩
  delta code at single
  simp only [SingleLine.append_iff] at single
  rcases single with ⟨-, -, -, -, -, -, singleName, -, singleComment⟩
  have singleBefore : (call.name ++ " ").SingleLine :=
    SingleLine.append_iff.2 ⟨singleName, by decide⟩
  have isName : beforeLastBlank? (call.name ++ " ") = some call.name :=
    beforeLastBlank?_concat (ne_nil_of_isFlush name) (by decide)
  have isLast : ¬ '/' :: "/".toList <:+: "/".toList ++ call.comment := by simpa using isLast
  have readName : Prefers (anythingUpTo "//") (call.name ++ (" //" ++ call.comment))
      (call.name ++ " ") call.comment := by
    have split : call.name ++ (" //" ++ call.comment) =
      (call.name ++ " ") ++ ("//" ++ call.comment) := by simp
    rw [split]
    exact .upTo (anyInLine_of_mem singleBefore) isLast
  have reading : Prefers invocation call.code call.name [] := by
    refine (Prefers.literal "invoke-" _).bind ?_
    refine (Prefers.span1 registers.1 registers.2 (by rintro _ ⟨⟩; decide)).bind ?_
    refine (Prefers.literal "\x7d," _).bind ?_
    refine (Prefers.span1 typeGap.1 typeGap.2 (type.ends (by simp) _)).bind ?_
    refine (Prefers.span1 type.1 type.2 (nameGap.ends (by simp) _)).bind ?_
    refine (Prefers.run1 nameGap.1 nameGap.2 (isBlank_of_isFlush name _)).bind ?_
    refine readName.bind ((Prefers.something comment singleComment).bind ?_)
    rw [isName]
    exact .given call.name []
  exact reading.first?

theorem DexCode.IsPrinted.isFlush {code : DexCode} (printed : code.IsPrinted) :
    isFlush code.text = true := by
  cases code with
  | invoke call => rfl
  | other code => exact printed.1

theorem EchoLine.singleLine_code {line : EchoLine} (single : line.text.SingleLine) :
    line.code.text.SingleLine := by
  simp only [text, SingleLine.append_iff] at single
  rcases single with ⟨-, -, -, -, -, -, -, -, singleCode⟩
  exact singleCode

theorem EchoLine.IsPrinted.first?_dexLine {line : EchoLine} (printed : line.IsPrinted)
    (single : line.text.SingleLine) :
    dexLine.first? line.text = some (line.address, line.code.text) := by
  rcases printed with ⟨margin, address, gap, first, words, last, barGap, code⟩
  have singleCode := singleLine_code single
  rcases first with ⟨digit, isFirst, isDigit⟩
  rcases List.head?_eq_some_iff.1 isFirst with ⟨others, isWords⟩
  rcases last with ⟨blank, isLast, isBlank⟩
  rw [isWords] at words isLast
  have endsOthers : others.getLast? = some blank := by
    cases others with
    | nil =>
        obtain rfl : digit = blank := by simpa using isLast
        rw [isBlank_of_isHexDigit digit isDigit] at isBlank
        cases isBlank
    | cons => simpa using isLast
  have areWords :
      IsRun (fun character => isHexDigit character || Text.isBlank character) others := by
    refine ⟨fun none => by simp [none] at endsOthers, fun character member => ?_⟩
    simpa using words character (List.mem_cons_of_mem _ member)
  have reading : Prefers dexLine line.text (line.address, line.code.text) [] := by
    refine (Prefers.span1 margin.1 margin.2 (by rintro _ ⟨⟩; decide)).bind ?_
    refine (Prefers.literal "0x" _).bind ?_
    refine (Prefers.span1 address.1 address.2 (by rintro _ ⟨⟩; decide)).bind ?_
    refine (Prefers.literal ":" _).bind ?_
    rw [isWords]
    refine (Prefers.span1 gap.1 gap.2
      (by rintro _ ⟨⟩; exact isBlank_of_isHexDigit _ isDigit)).bind ?_
    refine (Prefers.one isDigit _).bind ?_
    refine (Prefers.span1 areWords.1 areWords.2 (by rintro _ ⟨⟩; decide)).bind ?_
    rw [endsOthers, Option.filter_some, if_pos isBlank]
    refine (Prefers.given _ _).bind ((Prefers.literal "|" _).bind ?_)
    refine (Prefers.run1 barGap.1 barGap.2
      (by simpa using isBlank_of_isFlush code.isFlush [])).bind ?_
    exact (Prefers.something (ne_nil_of_isFlush code.isFlush) singleCode).bind (.pure _ [])
  exact reading.first?

/-! ### Lines of native code -/

theorem isFlush_append {text : Text} (flush : isFlush text = true) (rest : Text) :
    isFlush (text ++ rest) = true := by
  cases text with
  | nil => cases flush
  | cons first text => exact flush

theorem NativeCode.IsPrinted.isFlush {code : NativeCode} (printed : code.IsPrinted architecture) :
    isFlush (code.text architecture) = true := by
  cases code with
  | jump front sign offset target => cases architecture <;> exact isFlush_append printed.1 _
  | other code => cases architecture <;> exact printed.1

theorem prefers_jumpCode_arm64 {front offset target : Text} {sign : Char} (nonempty : front ≠ [])
    (single : front.SingleLine) (isSigned : isSign sign = true) (isOffset : offset.IsRun isHexDigit)
    (isTarget : target.IsRun isHexDigit) :
    Prefers Architecture.arm64.jumpCode
      (front ++ (" #" ++ (sign :: ("0x" ++ (offset ++ (" (addr 0x" ++ (target ++ ")")))))))
      target [] := by
  have noHash : '#' ∉ sign :: ("0x" ++ (offset ++ (" (addr 0x" ++ (target ++ ")")))) := by
    have noSign : '#' ≠ sign := by
      rintro rfl
      cases isSigned
    have noOffset : '#' ∉ offset := isOffset.notMem (by decide)
    have noTarget : '#' ∉ target := isTarget.notMem (by decide)
    simp [noSign, noOffset, noTarget]
  have absent : ' ' ∉ "#".toList := by decide
  have notAgain : ¬ ' ' :: "#".toList <:+:
      "#".toList ++ sign :: ("0x" ++ (offset ++ (" (addr 0x" ++ (target ++ ")")))) := fun again =>
    noHash ((infix_of_infix_append absent again).subset (by decide))
  refine (Prefers.somethingUpTo nonempty single notAgain).bind ?_
  refine (Prefers.one isSigned _).bind ((Prefers.literal "0x" _).bind ?_)
  refine (Prefers.span1 isOffset.1 isOffset.2 (by rintro _ ⟨⟩; decide)).bind ?_
  refine (Prefers.literal " (addr 0x" _).bind ?_
  refine (Prefers.span1 isTarget.1 isTarget.2 (by rintro _ ⟨⟩; decide)).bind ?_
  exact (Prefers.literal_self ")").bind (Prefers.atEnd.bind (.pure _ []))

/-- The last space is tried first, but no sign follows it. -/
theorem prefers_jumpCode_x86_64 {front offset target : Text} {sign : Char} (nonempty : front ≠ [])
    (single : front.SingleLine) (isSigned : isSign sign = true)
    (isOffset : offset.IsRun isDecimalDigit) (isTarget : target.IsRun isHexDigit)
    (isLong : target.length = 8) :
    Prefers Architecture.x86_64.jumpCode
      (front ++ (" " ++ (sign :: (offset ++ (" (0x" ++ (target ++ ")")))))) target [] := by
  have noSpace : ' ' ∉ sign :: offset := by
    have noSign : ' ' ≠ sign := by
      rintro rfl
      cases isSigned
    have noOffset : ' ' ∉ offset := isOffset.notMem (by decide)
    simp [noSign, noOffset]
  have noOther : ' ' ∉ "(0x" ++ (target ++ ")") := by
    have noTarget : ' ' ∉ target := isTarget.notMem (by decide)
    simp [noTarget]
  obtain ⟨later, shorter, readings, isLater⟩ := exists_somethingUpTo_eq ' ' [] nonempty single
    (sign :: (offset ++ (" (0x" ++ (target ++ ")"))))
  refine Prefers.bind_of_skipped readings (fun reading member => ?_) ?_
  · rcases isLater reading member with ⟨taken, split⟩
    have sameSplit : sign :: offset ++ ' ' :: ("(0x" ++ (target ++ ")")) =
      taken ++ ' ' :: reading.2 := split
    rcases (List.append_cons_inj_of_notMem noSpace noOther).1 sameSplit with ⟨-, -, isRest⟩
    rw [← isRest]
    rfl
  · refine (Prefers.one isSigned _).bind ?_
    refine (Prefers.span1 isOffset.1 isOffset.2 (by rintro _ ⟨⟩; decide)).bind ?_
    refine (Prefers.literal " (0x" _).bind ?_
    rw [← isLong]
    refine (Prefers.exactly isTarget.2 _).bind ?_
    exact (Prefers.literal_self ")").bind (Prefers.atEnd.bind (.pure _ []))

/-- The code of a jump leads to its target, and other code leads nowhere. -/
theorem NativeCode.IsPrinted.first?_jumpCode {code : NativeCode}
    (printed : code.IsPrinted architecture) (single : (code.text architecture).SingleLine) :
    architecture.jumpCode.first? (code.text architecture) = code.target? := by
  cases code with
  | jump front sign offset target =>
      rcases printed with ⟨flush, isSigned, parts⟩
      have nonempty := ne_nil_of_isFlush flush
      cases architecture with
      | arm64 =>
          have singleFront := (SingleLine.append_iff.1 single).1
          exact (prefers_jumpCode_arm64 nonempty singleFront isSigned parts.1 parts.2).first?
      | x86_64 =>
          have singleFront := (SingleLine.append_iff.1 single).1
          exact (prefers_jumpCode_x86_64 nonempty singleFront isSigned parts.1 parts.2.1
            parts.2.2).first?
  | other code =>
      have noJump : architecture.jumpCode.first? code = none := by
        simpa [accepts] using printed.2
      cases architecture <;> exact noJump

/-- The reader takes code for a call if it calls something. -/
theorem accepts_callCode {code : Text} (single : code.SingleLine) :
    architecture.callCode.accepts code = architecture.calls code := by
  rw [Bool.eq_iff_iff]
  constructor
  · intro accepted
    cases architecture with
    | arm64 =>
        rw [eq_of_callCode_arm64 accepted]
        decide
    | x86_64 =>
        rcases exists_of_accepts accepted with ⟨_, found⟩
        rcases Option.map_eq_some_iff.1 found with ⟨⟨_, _⟩, atHead, -⟩
        rcases List.mem_flatMap.1 (List.mem_of_head? atHead) with ⟨⟨_, rest⟩, isLiteral, later⟩
        rcases List.mem_flatMap.1 later with ⟨⟨taken, left⟩, inSomething, -⟩
        rcases eq_of_mem_span1 inSomething with ⟨isTaken, -, nonempty⟩
        have remains : 0 < rest.length := by
          rw [List.length_pos_iff]
          rintro rfl
          exact nonempty isTaken
        rw [mem_literal isLiteral]
        simpa [Architecture.calls, startsWith] using remains
  · intro isCall
    cases architecture with
    | arm64 =>
        rcases eq_of_beq isCall with rfl
        have reading : Prefers Architecture.arm64.callCode "blr lr" () [] :=
          (Prefers.literal_self "blr lr").bind .atEnd
        rw [accepts, reading.first?]
        rfl
    | x86_64 =>
        rcases Bool.and_eq_true_iff.1 isCall with ⟨starts, isLong⟩
        rcases List.isPrefixOf_iff_prefix.1 starts with ⟨rest, rfl⟩
        have nonempty : rest ≠ [] := by
          rintro rfl
          revert isLong
          decide
        have reading : Prefers Architecture.x86_64.callCode ("call " ++ rest) () [] :=
          (Prefers.literal "call " rest).bind
            ((Prefers.something nonempty (SingleLine.append_iff.1 single).2).bind .atEnd)
        rw [accepts, reading.first?]
        rfl

theorem CodeLine.singleLine_code {line : CodeLine}
    (single : (line.text architecture).SingleLine) : (line.code.text architecture).SingleLine := by
  simp only [text, SingleLine.append_iff] at single
  rcases single with ⟨-, -, -, -, -, -, -, singleCode⟩
  exact singleCode

theorem CodeLine.IsPrinted.first?_codeLine {line : CodeLine}
    (printed : line.IsPrinted architecture) (single : (line.text architecture).SingleLine) :
    codeLine.first? (line.text architecture) =
      some (line.address, line.code.text architecture) := by
  rcases printed with ⟨margin, address, gap, bytes, codeGap, code⟩
  have singleCode := singleLine_code single
  have reading : Prefers codeLine (line.text architecture)
      (line.address, line.code.text architecture) [] := by
    refine (Prefers.span1 margin.1 margin.2 (by rintro _ ⟨⟩; decide)).bind ?_
    refine (Prefers.literal "0x" _).bind ?_
    refine (Prefers.span1 address.1 address.2 (by rintro _ ⟨⟩; decide)).bind ?_
    refine (Prefers.literal ":" _).bind ?_
    refine (Prefers.span1 gap.1 gap.2 (bytes.ends isBlank_of_isHexDigit _)).bind ?_
    refine (Prefers.span1 bytes.1 bytes.2
      (codeGap.ends (fun _ => isHexDigit_of_isBlank) _)).bind ?_
    refine (Prefers.run1 codeGap.1 codeGap.2
      (by simpa using isBlank_of_isFlush code.isFlush [])).bind ?_
    exact (Prefers.something (ne_nil_of_isFlush code.isFlush) singleCode).bind (.pure _ [])
  exact reading.first?

/-- The mark for the address is found from the end of the line. -/
theorem prefers_dexPc {front right : Text} (nonempty : front ≠ []) (single : front.SingleLine)
    (isLast : ¬ "dex_pc=0x".toList <:+: right) :
    Prefers (somethingUpTo "dex_pc=0x") (front ++ ("dex_pc=0x" ++ right)) front right := by
  have absent : 'd' ∉ "ex_pc=0x".toList := by decide
  have notAgain : ¬ 'd' :: "ex_pc=0x".toList <:+: "ex_pc=0x".toList ++ right := fun again =>
    isLast (infix_of_infix_append absent again)
  exact .somethingUpTo nonempty single notAgain

theorem StackMap.IsPrinted.first?_stackMapLine {map : StackMap} (printed : map.IsPrinted)
    (single : map.line.SingleLine) : stackMapLine.first? map.line = some map.address := by
  rcases printed with ⟨margin, front, address, back, isLast⟩
  simp only [line, SingleLine.append_iff] at single
  rcases single with ⟨-, -, singleFront, -, -, -, singleBack⟩
  have reading : Prefers stackMapLine map.line map.address [] := by
    refine (Prefers.span1 margin.1 margin.2 (by rintro _ ⟨⟩; decide)).bind ?_
    refine (Prefers.literal "StackMap" _).bind ?_
    refine (prefers_dexPc front singleFront isLast).bind ?_
    refine (Prefers.span1 address.1 address.2 (by rintro _ ⟨⟩; decide)).bind ?_
    refine (Prefers.literal "," _).bind ((Prefers.something back singleBack).bind ?_)
    exact Prefers.atEnd.bind (.pure _ [])
  exact reading.first?

theorem InlineInfo.IsPrinted.first?_inlineInfoLine {info : InlineInfo} (printed : info.IsPrinted)
    (single : info.line.SingleLine) :
    inlineInfoLine.first? info.line = some (info.address, info.index) := by
  rcases printed with ⟨margin, front, address, gap, index, ⟨head, isHead, noDigit⟩, isLast⟩
  simp only [line, SingleLine.append_iff] at single
  rcases single with ⟨-, -, singleFront, -, -, -, -, -, -, singleBack⟩
  have isIndex := isRun_isDecimalDigit index
  have nonempty : info.back ≠ [] := by
    rintro none
    simp [none] at isHead
  have endsIndex : ∀ first ∈ info.back.head?, isDecimalDigit first = false := by
    intro first isFirst
    rwa [Option.mem_unique isFirst isHead]
  have reading : Prefers inlineInfoLine info.line (info.address, info.index) [] := by
    refine (Prefers.span1 margin.1 margin.2 (by rintro _ ⟨⟩; decide)).bind ?_
    refine (Prefers.literal "InlineInfo" _).bind ?_
    refine (prefers_dexPc front singleFront isLast).bind ?_
    refine (Prefers.span1 address.1 address.2 (by rintro _ ⟨⟩; decide)).bind ?_
    refine (Prefers.literal "," _).bind ?_
    refine (Prefers.span1 gap.1 gap.2 (by rintro _ ⟨⟩; decide)).bind ?_
    refine (Prefers.literal "method_index=" _).bind ?_
    refine (Prefers.run1 isIndex.1 isIndex.2 endsIndex).bind ?_
    refine (Prefers.something nonempty singleBack).bind ?_
    exact Prefers.atEnd.bind (.pure _ [])
  exact reading.first?

theorem NativePart.IsPrinted.first?_sizeMark {part : NativePart}
    (printed : part.IsPrinted architecture) : sizeMark.first? part.mark = some part.size := by
  rcases printed with ⟨-, isFirst, size, back, -, -⟩
  have isSize := isRun_isDecimalDigit size
  have readSize : Prefers (literal "size=" >>= fun _ => digits)
      ("size=" ++ (part.size ++ part.back)) part.size part.back :=
    (Prefers.literal "size=" _).bind (Prefers.span1 isSize.1 isSize.2 back)
  have reading : Prefers sizeMark part.mark part.size part.back := by
    refine readSize.anywhere fun left isEnd nonempty => ?_
    have none : literal "size=" (left ++ ("size=" ++ (part.size ++ part.back))) = [] :=
      literal_eq_nil_of_first isFirst isEnd nonempty
    simp only [Bind.bind, Form.andThen, none, List.flatMap_nil]
  exact reading.first?

end lines

end CompiledViews.Dump.Oatdump
