import CompiledViews.Proofs.Dump.Faults
import CompiledViews.Proofs.Dump.Oatdump.OneLine

/-!
# Diagnostics of the reader of `oatdump` dumps

The reader of `oatdump` dumps complains of what it finds on the line at hand, or on the line before
it where this is a call about which the line at hand says nothing. If a `StackMap` line follows a
call, though, what the reader complains of stands above or below that line, and it points at the
`StackMap` line.
-/

namespace CompiledViews.Dump.Oatdump

open Text Text.Form

variable {line : Text} {fault : Fault} {architecture : Architecture}

theorem sizeMark_reads : Reads line sizeMark (PartOf line) :=
  Reads.anywhere <| (Reads.literal _).bind fun _ _ => Reads.span1 _

theorem stackMapLine_reads : Reads line stackMapLine (PartOf line) :=
  (Reads.span1 _).bind fun _ _ => (Reads.literal _).bind fun _ _ =>
  (Reads.somethingUpTo _).bind fun _ _ => (Reads.span1 _).bind fun _ addressIsPart =>
  (Reads.literal _).bind fun _ _ => (Reads.span1 _).bind fun _ _ =>
  Reads.atEnd.bind fun _ _ => .pure addressIsPart

theorem inlineInfoLine_reads :
    Reads line inlineInfoLine fun taken => PartOf line taken.1 ∧ PartOf line taken.2 :=
  (Reads.span1 _).bind fun _ _ => (Reads.literal _).bind fun _ _ =>
  (Reads.somethingUpTo _).bind fun _ _ => (Reads.span1 _).bind fun _ addressIsPart =>
  (Reads.literal _).bind fun _ _ => (Reads.span1 _).bind fun _ _ =>
  (Reads.literal _).bind fun _ _ => (Reads.run1 _).bind fun _ methodIsPart =>
  (Reads.span1 _).bind fun _ _ => Reads.atEnd.bind fun _ _ => .pure ⟨addressIsPart, methodIsPart⟩

theorem jumpCode_reads : Reads line architecture.jumpCode (PartOf line) := by
  cases architecture with
  | arm64 =>
      exact (Reads.somethingUpTo _).bind fun _ _ => (Reads.one _).bind fun _ _ =>
        (Reads.literal _).bind fun _ _ => (Reads.span1 _).bind fun _ _ =>
        (Reads.literal _).bind fun _ _ => (Reads.span1 _).bind fun _ addressIsPart =>
        (Reads.literal _).bind fun _ _ => Reads.atEnd.bind fun _ _ => .pure addressIsPart
  | x86_64 =>
      exact (Reads.somethingUpTo _).bind fun _ _ => (Reads.one _).bind fun _ _ =>
        (Reads.span1 _).bind fun _ _ => (Reads.literal _).bind fun _ _ =>
        (Reads.exactly _ _).bind fun _ addressIsPart => (Reads.literal _).bind fun _ _ =>
        Reads.atEnd.bind fun _ _ => .pure addressIsPart

/-- What an instruction cannot be read for is its address or the address that it leads to. -/
theorem fault_of_readInstruction {place : Place} {call : OpenCall} {jump : Option Text}
    (failed : readInstruction place call jump = .error fault) :
    fault = .invalidNumber place call.address ∨
      ∃ address ∈ jump, fault = .invalidNumber place address := by
  unfold readInstruction at failed
  cases jump with
  | none =>
      rcases bind_eq_error_iff.1 failed with noTarget | ⟨target, _, failed⟩
      · cases noTarget
      · rcases bind_eq_error_iff.1 failed with noAddress | ⟨address, _, failed⟩
        · exact .inl (fault_of_number noAddress)
        · cases failed
  | some jump =>
      rcases bind_eq_error_iff.1 failed with noTarget | ⟨target, _, failed⟩
      · exact .inr ⟨jump, rfl, fault_of_number (map_eq_error_iff.1 noTarget)⟩
      · rcases bind_eq_error_iff.1 failed with noAddress | ⟨address, _, failed⟩
        · exact .inl (fault_of_number noAddress)
        · cases failed

theorem fault_of_addMapped {method : OpenMethod} {call : OpenCall} {callAddress : Nat}
    {callMethod : Option Nat}
    (failed : method.addMapped call callAddress callMethod = .error fault) :
    fault = .invalidNumber .lineBefore call.address := by
  rcases bind_eq_error_iff.1 failed with unread | ⟨instruction, _, failed⟩
  · rcases fault_of_readInstruction unread with isFault | ⟨address, isJump, _⟩
    · exact isFault
    · cases isJump
  · cases failed

theorem fault_of_addUnmapped {method : OpenMethod} {call : OpenCall}
    (failed : method.addUnmapped architecture call = .error fault)
    (addressIsPart : call.address <:+: line) (codeIsPart : call.code <:+: line) :
    ∃ value, value <:+: line ∧ fault = .invalidNumber .lineBefore value := by
  rcases bind_eq_error_iff.1 failed with unread | ⟨instruction, _, failed⟩
  · rcases fault_of_readInstruction unread with rfl | ⟨address, isJump, rfl⟩
    · exact ⟨call.address, addressIsPart, rfl⟩
    · exact ⟨address, jumpCode_reads.first? codeIsPart isJump, rfl⟩
  · cases failed

/-- Where the call at hand stands among the lines before. -/
def Position.Recalls (earlier : List Text) : Position → Prop
  | afterCall _ call => ∃ front line, earlier = front ++ [line] ∧
      codeLine.first? line = some (call.address, call.code)
  | afterStackMap _ call _ => ∃ front line map, earlier = front ++ [line, map] ∧
      codeLine.first? line = some (call.address, call.code) ∧ stackMapLine.accepts map = true
  | _ => True

/-- Where the call at hand, if there is one, stands among the lines before. -/
def Scope.Recalls (earlier : List Text) : Scope → Prop
  | inClass _ _ position => position.Recalls earlier
  | _ => True

theorem recalls_stepInCode {method : OpenMethod} {next : Position} {earlier : List Text}
    (stepped : stepInCode architecture method line = .ok next) :
    next.Recalls (earlier ++ [line]) := by
  unfold stepInCode at stepped
  split at stepped
  case h_1 _ =>
    obtain rfl := Except.ok.inj stepped
    trivial
  case h_2 address code isCode =>
    split at stepped
    · obtain rfl := Except.ok.inj stepped
      exact ⟨earlier, line, rfl, isCode⟩
    · rcases bind_eq_ok_iff.1 stepped with ⟨instruction, _, equal⟩
      obtain rfl := Except.ok.inj equal
      trivial

theorem recalls_stepBeforeCode {head : MethodHead} {references : NatMap Text} {next : Position}
    {earlier : List Text} (stepped : stepBeforeCode head references line = .ok next) :
    next.Recalls earlier := by
  unfold stepBeforeCode at stepped
  split at stepped
  · split at stepped
    · obtain rfl := Except.ok.inj stepped
      trivial
    · rcases bind_eq_ok_iff.1 stepped with ⟨codeSize, _, equal⟩
      obtain rfl := Except.ok.inj equal
      trivial
  · obtain rfl := Except.ok.inj stepped
    trivial

theorem recalls_stepInMethod {position next : Position} {earlier : List Text}
    (recalls : position.Recalls earlier)
    (stepped : stepInMethod architecture line position = .ok next) :
    next.Recalls (earlier ++ [line]) := by
  cases position with
  | betweenMethods =>
      obtain rfl := Except.ok.inj stepped
      trivial
  | beforeEcho head =>
      obtain rfl := Except.ok.inj stepped
      split <;> trivial
  | inEcho head references =>
      rw [stepInMethod] at stepped
      split at stepped
      case h_1 _ => exact recalls_stepBeforeCode stepped
      case h_2 address code _ =>
        split at stepped
        · obtain rfl := Except.ok.inj stepped
          trivial
        · rcases bind_eq_ok_iff.1 stepped with ⟨key, _, equal⟩
          obtain rfl := Except.ok.inj equal
          trivial
  | beforeCode head references => exact recalls_stepBeforeCode stepped
  | inCode method => exact recalls_stepInCode stepped
  | afterCall method call =>
      rw [stepInMethod] at stepped
      split at stepped
      case h_1 pc isMap =>
        rcases bind_eq_ok_iff.1 stepped with ⟨callAddress, _, equal⟩
        obtain rfl := Except.ok.inj equal
        obtain ⟨front, last, rfl, isCode⟩ := recalls
        exact ⟨front, last, line, by simp, isCode, by simp [accepts, isMap]⟩
      case h_2 _ =>
        rcases bind_eq_ok_iff.1 stepped with ⟨added, _, stepped⟩
        exact recalls_stepInCode stepped
  | afterStackMap method call callAddress =>
      rw [stepInMethod] at stepped
      split at stepped
      case h_1 _ =>
        rcases bind_eq_ok_iff.1 stepped with ⟨inlinedAddress, _, stepped⟩
        rcases bind_eq_ok_iff.1 stepped with ⟨inlinedMethod, _, stepped⟩
        rcases map_eq_ok_iff.1 stepped with ⟨added, _, rfl⟩
        trivial
      case h_2 _ =>
        rcases bind_eq_ok_iff.1 stepped with ⟨added, _, stepped⟩
        exact recalls_stepInCode stepped

theorem recalls_step {scope next : Scope} {completed : List Class} {earlier : List Text}
    (recalls : scope.Recalls earlier) (stepped : step scope line = .ok (completed, next)) :
    next.Recalls (earlier ++ [line]) := by
  cases scope with
  | beforeMark =>
      rcases Prod.mk.inj (Except.ok.inj stepped) with ⟨rfl, rfl⟩
      split <;> trivial
  | beforeName =>
      rw [step] at stepped
      split at stepped
      · rcases Prod.mk.inj (Except.ok.inj stepped) with ⟨rfl, rfl⟩
        trivial
      · cases stepped
  | betweenClasses architecture =>
      rw [step] at stepped
      split at stepped <;>
        · rcases Prod.mk.inj (Except.ok.inj stepped) with ⟨rfl, rfl⟩
          trivial
  | inClass architecture parent position =>
      rw [step] at stepped
      split at stepped
      case h_1 name _ =>
        rcases bind_eq_ok_iff.1 stepped with ⟨closed, _, stepped⟩
        rcases Prod.mk.inj (Except.ok.inj stepped) with ⟨rfl, rfl⟩
        trivial
      case h_2 _ =>
        split at stepped
        case h_1 header indexText _ =>
          rcases bind_eq_ok_iff.1 stepped with ⟨closed, _, stepped⟩
          rcases bind_eq_ok_iff.1 stepped with ⟨index, _, stepped⟩
          rcases Prod.mk.inj (Except.ok.inj stepped) with ⟨rfl, rfl⟩
          trivial
        case h_2 _ =>
          rcases bind_eq_ok_iff.1 stepped with ⟨moved, movedTo, stepped⟩
          rcases Prod.mk.inj (Except.ok.inj stepped) with ⟨rfl, rfl⟩
          exact recalls_stepInMethod recalls movedTo

/-- A line is a `StackMap` line, and a text stands on the line of the call above it or on the
`InlineInfo` line below it. -/
def AroundStackMap (spot : Spot) (quoted : Text) : Prop :=
  stackMapLine.accepts spot.line = true ∧
    ((∃ call ∈ spot.earlier.getLast?, codeLine.accepts call = true ∧ quoted <:+: call) ∨
      ∃ info ∈ spot.later.head?, inlineInfoLine.accepts info = true ∧ quoted <:+: info)

/-- A fault points at the line before and quotes it, or quotes a line around that one. -/
def IsLate (earlier later : List Text) (fault : Fault) : Prop :=
  ∃ front last value, earlier = front ++ [last] ∧ fault = .invalidNumber .lineBefore value ∧
    (value <:+: last ∨ AroundStackMap ⟨front, last, later⟩ value)

section fault

variable {earlier : List Text} {method : OpenMethod} {call : OpenCall} {callAddress : Nat}

theorem isLate_of_addUnmapped (recalls : (Position.afterCall method call).Recalls earlier)
    (failed : method.addUnmapped architecture call = .error fault) (later : List Text) :
    IsLate earlier later fault := by
  obtain ⟨front, last, rfl, isCode⟩ := recalls
  have parts := codeLine_reads.first? List.infix_rfl isCode
  obtain ⟨value, isPart, rfl⟩ := fault_of_addUnmapped failed parts.1 parts.2
  exact ⟨front, last, value, rfl, rfl, .inl isPart⟩

theorem isLate_of_addMapped {address : Nat} {callMethod : Option Nat}
    (recalls : (Position.afterStackMap method call callAddress).Recalls earlier)
    (failed : method.addMapped call address callMethod = .error fault) (later : List Text) :
    IsLate earlier later fault := by
  obtain ⟨front, last, map, rfl, isCode, isMap⟩ := recalls
  obtain rfl := fault_of_addMapped failed
  have isPart := (codeLine_reads.first? List.infix_rfl isCode).1
  refine ⟨front ++ [last], map, call.address, by simp, rfl, .inr ⟨isMap, .inl ⟨last, ?_⟩⟩⟩
  exact ⟨by simp, by simp [accepts, isCode], isPart⟩

theorem isLate_of_leave {parent : OpenClass} {position : Position}
    (recalls : position.Recalls earlier)
    (failed : leave architecture parent position = .error fault) (later : List Text) :
    IsLate earlier later fault := by
  rcases bind_eq_error_iff.1 failed with unsettled | ⟨settled, _, failed⟩
  · cases position with
    | afterCall method call =>
        exact isLate_of_addUnmapped recalls (map_eq_error_iff.1 unsettled) later
    | afterStackMap method call callAddress =>
        exact isLate_of_addMapped recalls (map_eq_error_iff.1 unsettled) later
    | _ => cases unsettled
  · split at failed <;> cases failed

theorem quotesHere_of_stepInCode (failed : stepInCode architecture method line = .error fault) :
    fault.QuotesHere line := by
  unfold stepInCode at failed
  split at failed
  case h_1 _ => cases failed
  case h_2 address code isCode =>
    have parts := codeLine_reads.first? List.infix_rfl isCode
    split at failed
    · cases failed
    · rcases bind_eq_error_iff.1 failed with unread | ⟨instruction, _, failed⟩
      · rcases fault_of_readInstruction unread with rfl | ⟨jump, isJump, rfl⟩
        · exact .of_invalidNumber parts.1
        · exact .of_invalidNumber (jumpCode_reads.first? parts.2 isJump)
      · cases failed

theorem quotesHere_of_stepBeforeCode {head : MethodHead} {references : NatMap Text}
    (failed : stepBeforeCode head references line = .error fault) : fault.QuotesHere line := by
  unfold stepBeforeCode at failed
  split at failed
  · split at failed
    case h_1 _ => cases failed
    case h_2 size isSize =>
      rcases bind_eq_error_iff.1 failed with noSize | ⟨codeSize, _, failed⟩
      · exact .of_number (sizeMark_reads.first? List.infix_rfl isSize) noSize
      · cases failed
  · cases failed

theorem quotesHere_or_of_stepInMethod {position : Position} (recalls : position.Recalls earlier)
    (failed : stepInMethod architecture line position = .error fault) (later : List Text) :
    fault.QuotesHere line ∨ IsLate earlier (line :: later) fault := by
  cases position with
  | betweenMethods => cases failed
  | beforeEcho head => cases failed
  | inEcho head references =>
      left
      rw [stepInMethod] at failed
      split at failed
      case h_1 _ => exact quotesHere_of_stepBeforeCode failed
      case h_2 address code isDex =>
        split at failed
        · cases failed
        · rcases bind_eq_error_iff.1 failed with noKey | ⟨key, _, failed⟩
          · exact .of_number (dexLine_reads.first? List.infix_rfl isDex).1 noKey
          · cases failed
  | beforeCode head references => exact .inl (quotesHere_of_stepBeforeCode failed)
  | inCode method => exact .inl (quotesHere_of_stepInCode failed)
  | afterCall method call =>
      rw [stepInMethod] at failed
      split at failed
      case h_1 pc isMap =>
        rcases bind_eq_error_iff.1 failed with noAddress | ⟨callAddress, _, failed⟩
        · exact .inl (.of_number (stackMapLine_reads.first? List.infix_rfl isMap) noAddress)
        · cases failed
      case h_2 _ =>
        rcases bind_eq_error_iff.1 failed with notAdded | ⟨added, _, failed⟩
        · exact .inr (isLate_of_addUnmapped recalls notAdded _)
        · exact .inl (quotesHere_of_stepInCode failed)
  | afterStackMap method call callAddress =>
      rw [stepInMethod] at failed
      split at failed
      case h_1 inlinedPc index isInfo =>
        right
        have parts := inlineInfoLine_reads.first? List.infix_rfl isInfo
        have ofPart {value : Text} (isPart : value <:+: line) :
            IsLate earlier (line :: later) (.invalidNumber .lineBefore value) := by
          obtain ⟨front, last, map, rfl, _, isMap⟩ := recalls
          refine ⟨front ++ [last], map, value, by simp, rfl, .inr ⟨isMap, .inr ⟨line, rfl, ?_⟩⟩⟩
          exact ⟨by simp [accepts, isInfo], isPart⟩
        rcases bind_eq_error_iff.1 failed with noAddress | ⟨inlinedAddress, _, failed⟩
        · rcases fault_of_number noAddress with rfl
          exact ofPart parts.1
        · rcases bind_eq_error_iff.1 failed with noMethod | ⟨inlinedMethod, _, failed⟩
          · rcases fault_of_number noMethod with rfl
            exact ofPart parts.2
          · exact isLate_of_addMapped recalls (map_eq_error_iff.1 failed) _
      case h_2 _ =>
        rcases bind_eq_error_iff.1 failed with notAdded | ⟨added, _, failed⟩
        · exact .inr (isLate_of_addMapped recalls notAdded _)
        · exact .inl (quotesHere_of_stepInCode failed)

/-- A fault quotes the line at hand, or it points at the line before. -/
theorem quotesHere_or_of_step {scope : Scope} (recalls : scope.Recalls earlier)
    (failed : step scope line = .error fault) (later : List Text) :
    fault.QuotesHere line ∨ IsLate earlier (line :: later) fault := by
  cases scope with
  | beforeMark => cases failed
  | beforeName =>
      rw [step] at failed
      split at failed
      · cases failed
      · obtain rfl := Except.error.inj failed
        exact .inl fun place quoted quotes => by cases quotes
  | betweenClasses architecture =>
      rw [step] at failed
      split at failed <;> cases failed
  | inClass architecture parent position =>
      rw [step] at failed
      split at failed
      case h_1 name _ =>
        rcases bind_eq_error_iff.1 failed with notLeft | ⟨closed, _, failed⟩
        · exact .inr (isLate_of_leave recalls notLeft _)
        · cases failed
      case h_2 _ =>
        split at failed
        case h_1 header indexText opens =>
          rcases bind_eq_error_iff.1 failed with notLeft | ⟨closed, _, failed⟩
          · exact .inr (isLate_of_leave recalls notLeft _)
          · rcases bind_eq_error_iff.1 failed with noIndex | ⟨index, _, failed⟩
            · exact .inl (.of_number (methodLine_reads.first? List.infix_rfl opens).2 noIndex)
            · cases failed
        case h_2 _ =>
          rcases bind_eq_error_iff.1 failed with notMoved | ⟨moved, _, failed⟩
          · exact quotesHere_or_of_stepInMethod recalls notMoved later
          · cases failed

/-- A fault that quotes something is found on a line and quotes it, or it points at the line before,
be it found on a line or at the end of the dump. -/
theorem quotesHere_or_of_findsFault {scope : Scope} {later : List Text} {quotation : Place × Text}
    (recalls : scope.Recalls earlier) (found : machine.FindsFault scope fault later)
    (quotes : fault.quotation? = some quotation) :
    (∃ line rest, later = line :: rest ∧ fault.QuotesHere line) ∨ IsLate earlier later fault := by
  cases later with
  | nil =>
      right
      cases scope with
      | inClass architecture parent position =>
          rcases bind_eq_error_iff.1 found with notLeft | ⟨closed, _, failed⟩
          · exact isLate_of_leave recalls notLeft []
          · cases failed
      | betweenClasses architecture => cases found
      | _ => cases found; cases quotes
  | cons line rest =>
      exact (quotesHere_or_of_step recalls found rest).imp_left fun here => ⟨line, rest, rfl, here⟩

end fault

/-- A text that an error quotes stands on the line that the error points at, unless this is a
`StackMap` line and the text a number that stands on one of the lines around it. -/
theorem exists_spot_of_read {text : Text} {error : Error} {lineNumber : Nat} {quoted : Text}
    (failed : read text = .error error) (quotes : error.quotation? = some (lineNumber, quoted)) :
    ∃ spot : Spot, spot.lines = Text.lines text ∧ lineNumber = spot.number ∧
      (quoted <:+: spot.line ∨
        error = .invalidNumber lineNumber quoted ∧ AroundStackMap spot quoted) := by
  rcases Machine.exists_quotation_of_read failed quotes with
    ⟨earlier, later, completed, scope, fault, place, isSplit, reading, found, rfl, isQuoted, rfl⟩
  have recalls := reading.recounts Scope.Recalls recalls_step trivial
  rcases quotesHere_or_of_findsFault recalls found isQuoted with
    ⟨line, rest, rfl, here⟩ | ⟨front, last, value, rfl, rfl, isPart⟩
  · obtain ⟨rfl, isPart⟩ := here place quoted isQuoted
    exact ⟨⟨earlier, line, rest⟩, isSplit.symm, rfl, .inl isPart⟩
  · obtain ⟨rfl, rfl⟩ := Prod.mk.inj (Option.some.inj isQuoted)
    exact ⟨⟨front, last, later⟩, isSplit ▸ Spot.lines_mk .., Spot.lineNumber_lineBefore ..,
      isPart.imp_right fun around => ⟨rfl, around⟩⟩

end CompiledViews.Dump.Oatdump
