import CompiledViews.Proofs.Dump.Oatdump.PrintedLines
import CompiledViews.Proofs.Dump.Machine
import CompiledViews.Proofs.Dump.Reading

/-!
# Reading printed native code of `oatdump`

Each printed line of code adds its instruction to the method, a call with what the lines below say
about its callee. A call is added by the line below it only, or by the end of the method. So what
has been read of a method is told by `settle`: whatever the last line of code was, a line that says
nothing about it leaves the same instructions behind as the end of the method does.
-/

namespace CompiledViews.Dump.Oatdump

open Text Text.Form

/-- A line that, after its leading blanks, begins with no digit opens neither a method nor a
class. -/
theorem isBoundary_of_startsWith {line mark : Text} {first : Char}
    (isFirst : mark.head? = some first) (noDigit : isDecimalDigit first = false)
    (starts : startsWith (trim line) mark = true) : isBoundary line = false := by
  have goesOn := head?_dropWhile_of_startsWith isFirst starts
  rw [isBoundary, Bool.or_eq_false_iff]
  constructor
  · by_contra opens
    rcases dropWhile_of_methodLine (by simpa using opens) with ⟨digit, number, rest, split, digits⟩
    rw [split] at goesOn
    obtain rfl : digit = first := Option.some.inj goesOn
    rw [digits digit List.mem_cons_self] at noDigit
    cases noDigit
  · by_contra opens
    rcases head?_of_classLine (by simpa using opens) with ⟨head, isHead, isDigit⟩
    rcases List.head?_eq_some_iff.1 isHead with ⟨rest, rfl⟩
    rw [List.dropWhile_cons_of_neg (by simp [isBlank_of_isDecimalDigit head isDigit])] at goesOn
    obtain rfl : head = first := Option.some.inj goesOn
    rw [isDigit] at noDigit
    cases noDigit

section lines

variable {architecture : Architecture} {parent : OpenClass} {position next : Position} {line : Text}

theorem reading_one (noBoundary : isBoundary line = false)
    (stepped : stepInMethod architecture line position = .ok next) :
    machine.Reading (.inClass architecture parent position) [line] []
      (.inClass architecture parent next) := by
  refine .one ?_
  rw [machine_step, step_of_isBoundary noBoundary, stepped]
  rfl

/-- Lines that a position passes over. -/
theorem reading_passed {lines : List Text}
    (passes : ∀ line ∈ lines, isBoundary line = false ∧
      stepInMethod architecture line position = .ok position) :
    machine.Reading (.inClass architecture parent position) lines []
      (.inClass architecture parent position) := by
  refine .loop fun line member => ?_
  rcases passes line member with ⟨noBoundary, stepped⟩
  rw [machine_step, step_of_isBoundary noBoundary, stepped]
  rfl

variable {method : OpenMethod}

def CodeLine.call (architecture : Architecture) (line : CodeLine) : OpenCall :=
  ⟨line.address, line.code.text architecture⟩

theorem readInstruction_call {line : CodeLine} (place : Place) {target : Option Text}
    (isAddress : line.address.IsHex) (isTarget : ∀ digits ∈ target, digits.IsHex) :
    readInstruction place (line.call architecture) target =
      .ok (line.instruction architecture target) := by
  have key : number hexadecimal? place line.address = .ok line.address.hexValue :=
    number_eq_ok_iff.2 isAddress.hexadecimal?
  cases target with
  | none =>
      simp only [readInstruction, CodeLine.call, key]
      rfl
  | some digits =>
      have value : number hexadecimal? place digits = .ok digits.hexValue :=
        number_eq_ok_iff.2 (isTarget digits rfl).hexadecimal?
      simp only [readInstruction, CodeLine.call, key, value]
      rfl

/-- A line that says nothing about a call settles it, and is then read as among other code. -/
theorem stepInMethod_of_settle (settled : settle architecture position = .ok (.inCode method))
    (notTaken : position.takes line = false) :
    stepInMethod architecture line position = stepInCode architecture method line := by
  cases position with
  | betweenMethods => cases Except.ok.inj settled
  | beforeEcho head => cases Except.ok.inj settled
  | inEcho head references => cases Except.ok.inj settled
  | beforeCode head references => cases Except.ok.inj settled
  | inCode other =>
      cases Except.ok.inj settled
      rfl
  | afterCall other call =>
      have noMap : stackMapLine.first? line = none := by
        simpa [Position.takes, accepts] using notTaken
      rcases map_eq_ok_iff.1 settled with ⟨added, isAdded, same⟩
      cases same
      rw [stepInMethod, noMap, isAdded]
      rfl
  | afterStackMap other call callAddress =>
      have noInfo : inlineInfoLine.first? line = none := by
        simpa [Position.takes, accepts] using notTaken
      rcases map_eq_ok_iff.1 settled with ⟨added, isAdded, same⟩
      cases same
      rw [stepInMethod, noInfo, isAdded]
      rfl

theorem isBoundary_of_isOther (isOther : isOther line = true) : isBoundary line = false := by
  simp only [Oatdump.isOther, Bool.and_eq_true, Bool.not_eq_true'] at isOther
  exact isOther.1

theorem leave_of_settle (settled : settle architecture position = .ok (.inCode method)) :
    leave architecture parent position = .ok (parent.add architecture method) := by
  rw [leave, settled]
  rfl

theorem stepInCode_of_isOther (isOther : isOther line = true) :
    stepInCode architecture method line = .ok (.inCode method) := by
  have noCode : codeLine.first? line = none := by
    simp only [Oatdump.isOther, Bool.and_eq_true, Bool.not_eq_true', accepts] at isOther
    simpa using isOther.2
  rw [stepInCode, noCode]

theorem BeginsWith.isOther {first second : Char} (begins : BeginsWith line first second)
    (noDigit : isDecimalDigit first = false) : isOther line = true := by
  have noZero : first ≠ '0' := by
    rintro rfl
    revert noDigit
    decide
  simp [Oatdump.isOther, accepts, begins.isBoundary (.inl noDigit), begins.codeLine noZero]

/-- No line of code says anything about a call above it. -/
theorem takes_of_codeLine (settled : settle architecture position = .ok (.inCode method))
    (isCode : codeLine.accepts line = true) : position.takes line = false := by
  have begins := beginsWith_of_codeLine isCode
  by_contra taken
  have taken : position.takes line = true := by simpa using taken
  cases position with
  | inEcho head references => cases Except.ok.inj settled
  | afterCall other call =>
      have other := (beginsWith_of_stackMapLine taken).head?
      rw [begins.head?] at other
      cases other
  | afterStackMap other call callAddress =>
      have other := (beginsWith_of_inlineInfoLine taken).head?
      rw [begins.head?] at other
      cases other
  | _ => cases taken

theorem reading_inCode {lines : List Text} (others : ∀ line ∈ lines, isOther line = true) :
    machine.Reading (.inClass architecture parent (.inCode method)) lines []
      (.inClass architecture parent (.inCode method)) := by
  apply reading_passed
  intro line member
  exact ⟨isBoundary_of_isOther (others line member), stepInCode_of_isOther (others line member)⟩

/-- Other lines below a line of code are passed over. -/
theorem reading_others {lines : List Text}
    (settled : settle architecture position = .ok (.inCode method))
    (others : ∀ line ∈ lines, isOther line = true)
    (first : ∀ line ∈ lines.head?, position.takes line = false) :
    ∃ final, machine.Reading (.inClass architecture parent position) lines []
        (.inClass architecture parent final) ∧
      settle architecture final = .ok (.inCode method) := by
  cases lines with
  | nil => exact ⟨position, .done _, settled⟩
  | cons line lines =>
      rcases List.forall_mem_cons.1 others with ⟨isOther, rest⟩
      refine ⟨.inCode method, ?_, rfl⟩
      have stepped : stepInMethod architecture line position = .ok (.inCode method) := by
        rw [stepInMethod_of_settle settled (first line rfl), stepInCode_of_isOther isOther]
      exact (reading_one (isBoundary_of_isOther isOther) stepped).append (reading_inCode rest)

theorem CallSite.IsPrinted.isOther {site : CallSite} (printed : site.IsPrinted)
    (single : ∀ line ∈ site.lines, line.SingleLine) : ∀ line ∈ site.lines, isOther line = true := by
  rcases List.forall_mem_cons.1 single with ⟨singleMap, singleInfo⟩
  refine List.forall_mem_cons.2 ⟨?_, fun line member => ?_⟩
  · have isMap := printed.map.first?_stackMapLine singleMap
    exact (beginsWith_of_stackMapLine (by simp [accepts, isMap])).isOther (by decide)
  · rcases List.mem_map.1 member with ⟨info, isInlined, rfl⟩
    have isInfo := (printed.inlined info (by simpa using isInlined)).first?_inlineInfoLine
      (singleInfo _ member)
    exact (beginsWith_of_inlineInfoLine (by simp [accepts, isInfo])).isOther (by decide)

namespace CodeLine

variable {line : CodeLine}

theorem IsPrinted.isHex_address (printed : line.IsPrinted architecture)
    (fits : ∀ number ∈ line.numbers, number < wordLimit) : line.address.IsHex :=
  isHex_of_isRun printed.address (fits line.address.hexValue List.mem_cons_self)

theorem IsPrinted.isHex_target (printed : line.IsPrinted architecture)
    (fits : ∀ number ∈ line.numbers, number < wordLimit) :
    ∀ digits ∈ line.code.target?, digits.IsHex := by
  intro digits isTarget
  have isRun : digits.IsRun isHexDigit := by
    have code := printed.code
    rcases isCode : line.code with ⟨front, sign, offset, target⟩ | other
    · rw [isCode] at isTarget code
      obtain rfl : target = digits := Option.some.inj isTarget
      cases architecture with
      | arm64 => exact code.2.2.2
      | x86_64 => exact code.2.2.2.1
    · rw [isCode] at isTarget
      cases isTarget
  have isTarget : line.code.target? = some digits := isTarget
  exact isHex_of_isRun isRun (fits digits.hexValue (by simp [numbers, isTarget]))

theorem IsPrinted.stepInCode (printed : line.IsPrinted architecture)
    (fits : ∀ number ∈ line.numbers, number < wordLimit)
    (single : (line.text architecture).SingleLine) :
    Oatdump.stepInCode architecture method (line.text architecture) =
      .ok (if architecture.calls (line.code.text architecture)
        then .afterCall method (line.call architecture)
        else .inCode (method.add (line.instruction architecture line.code.target?))) := by
  have singleCode := singleLine_code single
  rw [Oatdump.stepInCode, printed.first?_codeLine single]
  simp only [accepts_callCode singleCode, printed.code.first?_jumpCode singleCode]
  split
  · rfl
  · have isRead : readInstruction .thisLine (line.call architecture) line.code.target? =
        .ok (line.instruction architecture line.code.target?) :=
      readInstruction_call .thisLine (printed.isHex_address fits) (printed.isHex_target fits)
    rw [call] at isRead
    rw [isRead]
    rfl

theorem IsPrinted.reading (printed : line.IsPrinted architecture)
    (fits : ∀ number ∈ line.numbers, number < wordLimit)
    (single : (line.text architecture).SingleLine)
    (settled : settle architecture position = .ok (.inCode method)) (parent : OpenClass) :
    machine.Reading (.inClass architecture parent position) [line.text architecture] []
      (.inClass architecture parent (if architecture.calls (line.code.text architecture)
        then .afterCall method (line.call architecture)
        else .inCode (method.add (line.instruction architecture line.code.target?)))) := by
  have isCode : codeLine.accepts (line.text architecture) = true := by
    rw [accepts, printed.first?_codeLine single]
    rfl
  apply reading_one
  · exact (beginsWith_of_codeLine isCode).isBoundary (.inr (by decide))
  · rw [stepInMethod_of_settle settled (takes_of_codeLine settled isCode)]
    exact printed.stepInCode fits single

theorem IsPrinted.settle_afterCall (printed : line.IsPrinted architecture)
    (fits : ∀ number ∈ line.numbers, number < wordLimit)
    (single : (line.text architecture).SingleLine) :
    settle architecture (.afterCall method (line.call architecture)) =
      .ok (.inCode (method.add (line.instruction architecture line.code.target?))) := by
  have isJump : architecture.jumpCode.first? (line.call architecture).code = line.code.target? :=
    printed.code.first?_jumpCode (singleLine_code single)
  rw [settle, OpenMethod.addUnmapped, isJump,
    readInstruction_call .lineBefore (printed.isHex_address fits) (printed.isHex_target fits)]
  rfl

end CodeLine

theorem addMapped_call {line : CodeLine} (isAddress : line.address.IsHex) (callAddress : Nat)
    (callMethod : Option Nat) :
    method.addMapped (line.call architecture) callAddress callMethod =
      .ok (method.add { line.instruction architecture none with
        callAddress := some callAddress, callMethod }) := by
  have noTarget : ∀ digits ∈ (none : Option Text), digits.IsHex := by
    intro digits none
    cases none
  rw [OpenMethod.addMapped, readInstruction_call .lineBefore isAddress noTarget]
  rfl

variable (architecture parent method) in
theorem StackMap.IsPrinted.reading {map : StackMap} (printed : map.IsPrinted)
    (single : map.line.SingleLine) (isAddress : map.address.IsHex) (call : OpenCall) :
    machine.Reading (.inClass architecture parent (.afterCall method call)) [map.line] []
      (.inClass architecture parent (.afterStackMap method call map.address.hexValue)) := by
  have isMap := printed.first?_stackMapLine single
  have key : number hexadecimal? .thisLine map.address = .ok map.address.hexValue :=
    number_eq_ok_iff.2 isAddress.hexadecimal?
  apply reading_one
  · exact (beginsWith_of_stackMapLine (by simp [accepts, isMap])).isBoundary (.inl (by decide))
  · simp only [stepInMethod, isMap, key]
    rfl

variable (architecture parent method) in
theorem InlineInfo.IsPrinted.reading {info : InlineInfo} (printed : info.IsPrinted)
    (single : info.line.SingleLine) (isAddress : info.address.IsHex)
    (isIndex : info.index.IsDecimal) {line : CodeLine} (ofLine : line.address.IsHex)
    (callAddress : Nat) :
    machine.Reading
      (.inClass architecture parent (.afterStackMap method (line.call architecture) callAddress))
      [info.line] []
      (.inClass architecture parent (.inCode (method.add { line.instruction architecture none with
        callAddress := some info.address.hexValue
        callMethod := some info.index.decimalValue }))) := by
  have isInfo := printed.first?_inlineInfoLine single
  have key : number hexadecimal? .lineBefore info.address = .ok info.address.hexValue :=
    number_eq_ok_iff.2 isAddress.hexadecimal?
  have index : number decimal? .lineBefore info.index = .ok info.index.decimalValue :=
    number_eq_ok_iff.2 isIndex.decimal?
  apply reading_one
  · exact (beginsWith_of_inlineInfoLine (by simp [accepts, isInfo])).isBoundary (.inl (by decide))
  · simp only [stepInMethod, isInfo, key, index]
    have isAdded : method.addMapped (line.call architecture) info.address.hexValue
        (some info.index.decimalValue) = _ := addMapped_call ofLine _ _
    show Position.inCode <$> method.addMapped (line.call architecture) _ _ = _
    rw [isAdded]
    rfl

/-- What is said about a callee is read for the call above. -/
theorem CallSite.IsPrinted.reading {site : CallSite} (printed : site.IsPrinted)
    (fits : ∀ number ∈ site.numbers, number < wordLimit)
    (single : ∀ line ∈ site.lines, line.SingleLine) {line : CodeLine}
    (ofLine : line.address.IsHex) :
    ∃ next, machine.Reading
        (.inClass architecture parent (.afterCall method (line.call architecture))) site.lines []
        (.inClass architecture parent next) ∧
      settle architecture next =
        .ok (.inCode (method.add { line.instruction architecture none with
          callAddress := some site.callee.1
          callMethod := site.callee.2 })) ∧
      ∀ other, site.goesOn other = false → next.takes other = false := by
  rcases site with ⟨map, inlined⟩
  rcases List.forall_mem_cons.1 fits with ⟨smallMap, smallInfo⟩
  rcases List.forall_mem_cons.1 single with ⟨singleMap, singleInfo⟩
  have readMap := printed.map.reading architecture parent method singleMap
    (isHex_of_isRun printed.map.address smallMap) (line.call architecture)
  cases inlined with
  | none =>
      refine ⟨_, readMap, ?_, ?_⟩
      · rw [settle, addMapped_call ofLine]
        rfl
      · intro other stops
        exact stops
  | some info =>
      have isInfo := printed.inlined info rfl
      have smallAddress : info.address.hexValue < wordLimit := smallInfo _ (by simp)
      have smallIndex : info.index.decimalValue < wordLimit := smallInfo _ (by simp)
      have readInfo := isInfo.reading architecture parent method (singleInfo info.line (by simp))
        (isHex_of_isRun isInfo.address smallAddress) (isDecimal_of_isRun isInfo.index smallIndex)
        ofLine map.address.hexValue
      refine ⟨_, readMap.append readInfo, rfl, ?_⟩
      intro other _
      rfl

/-- A line of code and what is said about its callee. -/
theorem CodeGroup.IsPrinted.reading_top {group : CodeGroup}
    (printed : group.IsPrinted architecture)
    (fits : ∀ number ∈ group.numbers architecture, number < wordLimit)
    (single : ∀ line ∈ group.lines architecture, line.SingleLine)
    (settled : settle architecture position = .ok (.inCode method)) :
    ∃ next, machine.Reading (.inClass architecture parent position)
        (group.line.text architecture :: group.site.toList.flatMap CallSite.lines) []
        (.inClass architecture parent next) ∧
      settle architecture next = .ok (.inCode (method.add (group.instruction architecture))) ∧
      ∀ line ∈ group.after.head?, next.takes line = false := by
  rcases List.forall_mem_append.1 fits with ⟨fitsLine, fitsSite⟩
  rcases List.forall_mem_cons.1 single with ⟨singleLine, below⟩
  rcases List.forall_mem_append.1 below with ⟨singleSite, -⟩
  have readLine := printed.line.reading fitsLine singleLine settled parent
  rcases isCall : architecture.calls (group.line.code.text architecture) with _ | _
  · -- what is said about a callee is passed over if nothing is called
    rw [isCall, if_neg Bool.false_ne_true] at readLine
    have passed : ∀ line ∈ group.site.toList.flatMap CallSite.lines, isOther line = true := by
      intro line member
      rcases List.mem_flatMap.1 member with ⟨site, isSite, inSite⟩
      have isPrinted := printed.site site (by simpa using isSite)
      apply isPrinted.isOther _ line inSite
      intro line inLines
      exact singleSite line (List.mem_flatMap.2 ⟨site, isSite, inLines⟩)
    refine ⟨_, readLine.append (reading_inCode passed), ?_, ?_⟩
    · simp [settle, CodeGroup.instruction, CodeGroup.callSite?, isCall]
    · intro line _
      rfl
  · rw [isCall, if_pos rfl] at readLine
    have stops := printed.first isCall
    rcases isSite : group.site with _ | site
    · refine ⟨_, readLine, ?_, ?_⟩
      · rw [printed.line.settle_afterCall fitsLine singleLine]
        simp [CodeGroup.instruction, CodeGroup.callSite?, isSite]
      · simpa [CodeGroup.goesOn, Position.takes, isSite] using stops
    · have known : group.callSite? architecture = some site := by
        simp [CodeGroup.callSite?, isSite, isCall]
      have fitsOwn : ∀ number ∈ site.numbers, number < wordLimit := by
        intro number member
        exact fitsSite number (by simpa [known] using member)
      have singleOwn : ∀ line ∈ site.lines, line.SingleLine := by
        intro line member
        exact singleSite line (by simpa [isSite] using member)
      have isAddress := printed.line.isHex_address fitsLine
      rcases (printed.site site isSite).reading fitsOwn singleOwn isAddress with
        ⟨next, readSite, settledNext, passes⟩
      refine ⟨next, ?_, ?_, ?_⟩
      · simpa using readLine.append readSite
      · rw [settledNext, CodeGroup.instruction, known]
      · intro line isFirst
        apply passes
        simpa [CodeGroup.goesOn, isSite] using stops line isFirst

theorem CodeGroup.IsPrinted.reading {group : CodeGroup} (printed : group.IsPrinted architecture)
    (fits : ∀ number ∈ group.numbers architecture, number < wordLimit)
    (single : ∀ line ∈ group.lines architecture, line.SingleLine)
    (settled : settle architecture position = .ok (.inCode method)) :
    ∃ final, machine.Reading (.inClass architecture parent position) (group.lines architecture) []
        (.inClass architecture parent final) ∧
      settle architecture final = .ok (.inCode (method.add (group.instruction architecture))) := by
  rcases printed.reading_top fits single settled with ⟨next, readTop, settledNext, first⟩
  rcases reading_others settledNext printed.after first with ⟨final, readAfter, settledFinal⟩
  exact ⟨final, readTop.append readAfter, settledFinal⟩

theorem reading_groups {groups : List CodeGroup}
    (printed : ∀ group ∈ groups, group.IsPrinted architecture)
    (fits : ∀ number ∈ groups.flatMap (CodeGroup.numbers architecture), number < wordLimit)
    (single : ∀ line ∈ groups.flatMap (CodeGroup.lines architecture), line.SingleLine)
    (settled : settle architecture position = .ok (.inCode method)) (parent : OpenClass) :
    ∃ final, machine.Reading (.inClass architecture parent position)
        (groups.flatMap (CodeGroup.lines architecture)) [] (.inClass architecture parent final) ∧
      settle architecture final = .ok (.inCode { method with
        instructions :=
          method.instructions ++ groups.map (CodeGroup.instruction architecture) }) := by
  -- each line of code is read from wherever the lines above it have led the reader
  induction groups generalizing position method with
  | nil => exact ⟨position, .done _, by simpa using settled⟩
  | cons group groups ih =>
      rcases List.forall_mem_cons.1 printed with ⟨isPrinted, printedOthers⟩
      rw [List.flatMap_cons] at fits single
      rcases List.forall_mem_append.1 fits with ⟨fitsHere, fitsOthers⟩
      rcases List.forall_mem_append.1 single with ⟨singleHere, singleOthers⟩
      rcases isPrinted.reading fitsHere singleHere settled with ⟨next, readGroup, settledNext⟩
      rcases ih printedOthers fitsOthers singleOthers settledNext with
        ⟨final, readOthers, settledFinal⟩
      refine ⟨final, readGroup.append readOthers, ?_⟩
      rw [settledFinal]
      simp [OpenMethod.add]

end lines

end CompiledViews.Dump.Oatdump
