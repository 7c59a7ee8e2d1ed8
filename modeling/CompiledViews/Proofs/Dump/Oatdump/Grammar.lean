import CompiledViews.Proofs.Dump.Oatdump.Lines
import CompiledViews.Proofs.Dump.Ranges
import CompiledViews.Proofs.Dump.Reading
import Mathlib.Data.List.Forall2

/-!
# The grammar of `oatdump` dumps

What a dump says is found by cutting it up, without the reader: the lines that open a class cut it
into ranges, the lines that open a method cut the range of a class, and the lines of code cut what
stands below the mark of the native code. A class is given by its range, and a method with code by
the range that its own line opens.

`Position.Gives` says what the lines of a method that are still to come give where the reader is in
the middle of it. A line and what it leaves to come are what was to come before it, so what a method
gives is found backwards from its last line.
-/

namespace CompiledViews.Dump.Oatdump

open Text Text.Form

/-- A line of code, given by its address and its code, and the lines below it up to the next one
show an instruction. Where a call is followed by a `StackMap` line, and this by an `InlineInfo`
line, these say what is called. -/
inductive Shows (architecture : Architecture) : (Text × Text) × List Text → Instruction → Prop where
  | plain {address code : Text} {below : List Text} {key : Nat} {target : Option Nat}
      (noCall : architecture.callCode.accepts code = true →
        ∀ line ∈ below.head?, stackMapLine.accepts line = false)
      (isKey : hexadecimal? address = some key)
      (leads : Option.Rel (fun jump value => hexadecimal? jump = some value)
        (architecture.jumpCode.first? code) target) :
      Shows architecture ((address, code), below)
        (Instruction.ofCode key ("0x" ++ address) code target)
  | mapped {address code map pc : Text} {below : List Text} {key callAddress : Nat}
      (isCall : architecture.callCode.accepts code = true)
      (isMap : stackMapLine.first? map = some pc) (isKey : hexadecimal? address = some key)
      (isAddress : hexadecimal? pc = some callAddress)
      (noInfo : ∀ line ∈ below.head?, inlineInfoLine.accepts line = false) :
      Shows architecture ((address, code), map :: below)
        { Instruction.ofCode key ("0x" ++ address) code none with
          callAddress := some callAddress }
  | inlined {address code map pc info inlinedPc index : Text} {below : List Text}
      {key callAddress callMethod : Nat} (isCall : architecture.callCode.accepts code = true)
      (isMap : stackMapLine.first? map = some pc)
      (isInfo : inlineInfoLine.first? info = some (inlinedPc, index))
      (isKey : hexadecimal? address = some key)
      (isAddress : hexadecimal? inlinedPc = some callAddress)
      (isMethod : decimal? index = some callMethod) :
      Shows architecture ((address, code), map :: info :: below)
        { Instruction.ofCode key ("0x" ++ address) code none with
          callAddress := some callAddress, callMethod := some callMethod }

/-- The lines of code among the native code, each with the lines up to the next one. -/
def codeRanges (native : List Text) : List ((Text × Text) × List Text) :=
  ranges codeLine.first? codeLine.accepts native

/-- The lines below the mark of the DEX code. -/
def afterDex (lines : List Text) : List Text := (lines.dropWhile fun line => !marksDex line).drop 1

/-- The mark of the native code among some lines, and the lines below it. -/
def native? (lines : List Text) : Option (Text × List Text) :=
  match lines.dropWhile fun line => !marksCode line with
  | [] => none
  | mark :: native => some (mark, native)

/-- The invocations of a method with the one on a further line of the DEX code, if there is one. -/
def insertInvocation (table : NatMap Text) (line : Text) : Option (NatMap Text) :=
  match dexLine.first? line with
  | none => some table
  | some (address, code) =>
    match invocation.first? code with
    | none => some table
    | some name => (hexadecimal? address).map fun key => table.insert key name

/-- The methods that are opened among the lines of a class, by their declarations and their indices,
each with the lines up to the next one. -/
def methodRanges (lines : List Text) : List ((Text × Text) × List Text) :=
  ranges methodLine.first? isBoundary lines

/-- Whether both codes of a method are among its lines, the DEX code first. -/
def hasCode (range : (Text × Text) × List Text) : Bool := (native? (afterDex range.2)).isSome

/-- What the reader makes of the line that opens a method and the lines up to the next one. -/
structure GivesMethod (architecture : Architecture) (range : (Text × Text) × List Text)
    (method : Method) : Prop where
  header : method.header = range.1.1
  index : ∃ index, decimal? range.1.2 = some index ∧ method.index = some index
  isa : method.isa = architecture.isa
  references :
    ((afterDex range.2).takeWhile dexLine.accepts).foldlM insertInvocation .empty =
      some method.references
  code : ∃ mark native, native? (afterDex range.2) = some (mark, native) ∧
    Option.Rel (fun size value => decimal? size = some value) (sizeMark.first? mark)
      method.codeSize ∧
    List.Forall₂ (Shows architecture) (codeRanges native) method.instructions

/-- The classes that are opened among some lines, by their names, each with the lines up to the next
one. -/
def classRanges (lines : List Text) : List (Text × List Text) :=
  ranges classLine.first? classLine.accepts lines

/-- Whether a class is not built in and has a method with code. -/
def isKept (range : Text × List Text) : Bool :=
  !isBuiltIn (replaceChar '/' '.' range.1) && (methodRanges range.2).any hasCode

/-- Some lines of a class give one method for each of their ranges with code, in order. -/
def GivesMethods (architecture : Architecture) (lines : List Text) (methods : List Method) : Prop :=
  List.Forall₂ (GivesMethod architecture) ((methodRanges lines).filter hasCode) methods

/-- What the reader makes of the line that opens a class and the lines up to the next one. -/
structure GivesClass (architecture : Architecture) (range : Text × List Text) (cls : Class) :
    Prop where
  header : cls.header = "class " ++ replaceChar '/' '.' range.1
  methods : GivesMethods architecture range.2 cls.methods

/-- Some lines give one class for each of their ranges that is not built in and has a method with
code, in order. -/
def GivesClasses (architecture : Architecture) (lines : List Text) (classes : List Class) : Prop :=
  List.Forall₂ (GivesClass architecture) ((classRanges lines).filter isKept) classes

/-- The lines of a dump give the classes below the name of the instruction set, which stands below
the first mark for it. -/
def GivesDump (lines : List Text) (classes : List Class) : Prop :=
  ∃ before mark name rest architecture, lines = before ++ mark :: name :: rest ∧
    (∀ line ∈ before, startsWith (trim line) "INSTRUCTION SET:" = false) ∧
    startsWith (trim mark) "INSTRUCTION SET:" = true ∧
    Architecture.ofName? (trim name) = some architecture ∧ GivesClasses architecture rest classes

section position

/-! What the lines of a method that are still to come give. -/

variable {architecture : Architecture}

/-- A method whose code has been read. -/
def OpenMethod.complete (method : OpenMethod) (architecture : Architecture) : Method where
  header := method.head.header
  index := some method.head.index
  codeSize := method.codeSize
  isa := architecture.isa
  instructions := method.instructions
  references := method.references

/-- The method at hand is completed by the instructions that some lines of code show. -/
def GivesCode (architecture : Architecture) (method : OpenMethod)
    (shown : List ((Text × Text) × List Text)) (given : List Method) : Prop :=
  ∃ instructions, List.Forall₂ (Shows architecture) shown instructions ∧
    given = [OpenMethod.complete { method with
      instructions := method.instructions ++ instructions } architecture]

/-- The method at hand is completed by lines that contain the mark of its native code. -/
def GivesNative (architecture : Architecture) (head : MethodHead) (references : NatMap Text)
    (own : List Text) (given : List Method) : Prop :=
  match native? own with
  | none => given = []
  | some (mark, native) => ∃ codeSize,
    Option.Rel (fun size value => decimal? size = some value) (sizeMark.first? mark) codeSize ∧
      GivesCode architecture ⟨head, codeSize, references, []⟩ (codeRanges native) given

/-- The method at hand is completed by lines that begin with its DEX code. -/
def GivesBoth (architecture : Architecture) (head : MethodHead) (references : NatMap Text)
    (own : List Text) (given : List Method) : Prop :=
  ∃ table, (own.takeWhile dexLine.accepts).foldlM insertInvocation references = some table ∧
    GivesNative architecture head table own given

/-- What the own lines of the method at hand give that are still to come. -/
def Position.Gives (architecture : Architecture) (own : List Text) (given : List Method) :
    Position → Prop
  | betweenMethods => given = []
  | beforeEcho head => GivesBoth architecture head .empty (afterDex own) given
  | inEcho head references => GivesBoth architecture head references own given
  | beforeCode head references => GivesNative architecture head references own given
  | inCode method => GivesCode architecture method (codeRanges own) given
  -- the line of the call is read already, so its range goes in front of those still to come
  | afterCall method call =>
    architecture.callCode.accepts call.code = true →
      GivesCode architecture method
        (((call.address, call.code), own.takeWhile fun line => !codeLine.accepts line) ::
          codeRanges own) given
  | afterStackMap method call callAddress =>
    architecture.callCode.accepts call.code = true → ∀ map pc,
      stackMapLine.first? map = some pc → hexadecimal? pc = some callAddress →
      GivesCode architecture method
        (((call.address, call.code), map :: own.takeWhile fun line => !codeLine.accepts line) ::
          codeRanges own) given

theorem GivesCode.cons {method : OpenMethod} {instruction : Instruction}
    {first : (Text × Text) × List Text} {shown : List ((Text × Text) × List Text)}
    {given : List Method} (shows : Shows architecture first instruction)
    (others : GivesCode architecture (method.add instruction) shown given) :
    GivesCode architecture method (first :: shown) given := by
  rcases others with ⟨instructions, areShown, rfl⟩
  exact ⟨instruction :: instructions, .cons shows areShown, by simp [OpenMethod.add]⟩

theorem readInstruction_eq_ok {place : Place} {call : OpenCall} {jump : Option Text}
    {instruction : Instruction} (isRead : readInstruction place call jump = .ok instruction) :
    ∃ key target, hexadecimal? call.address = some key ∧
      Option.Rel (fun jump value => hexadecimal? jump = some value) jump target ∧
      instruction = Instruction.ofCode key ("0x" ++ call.address) call.code target := by
  unfold readInstruction at isRead
  rcases jump with _ | jump
  · obtain ⟨target, isTarget, isRead⟩ := bind_eq_ok_iff.1 isRead
    obtain ⟨key, isKey, isRead⟩ := bind_eq_ok_iff.1 isRead
    obtain rfl := Except.ok.inj isTarget
    exact ⟨key, none, number_eq_ok_iff.1 isKey, .none, (Except.ok.inj isRead).symm⟩
  · obtain ⟨target, isTarget, isRead⟩ := bind_eq_ok_iff.1 isRead
    obtain ⟨key, isKey, isRead⟩ := bind_eq_ok_iff.1 isRead
    obtain ⟨value, isValue, rfl⟩ := map_eq_ok_iff.1 isTarget
    exact ⟨key, some value, number_eq_ok_iff.1 isKey, .some (number_eq_ok_iff.1 isValue),
      (Except.ok.inj isRead).symm⟩

variable {method added : OpenMethod} {call : OpenCall} {line : Text} {own below : List Text}
  {given : List Method} {next : Position}

/-- A call that no `StackMap` line follows shows an instruction. -/
theorem GivesCode.cons_addUnmapped {shown : List ((Text × Text) × List Text)}
    (isAdded : method.addUnmapped architecture call = .ok added)
    (noMap : ∀ line ∈ below.head?, stackMapLine.accepts line = false)
    (others : GivesCode architecture added shown given) :
    GivesCode architecture method (((call.address, call.code), below) :: shown) given := by
  rcases bind_eq_ok_iff.1 isAdded with ⟨instruction, isRead, equal⟩
  obtain rfl := Except.ok.inj equal
  obtain ⟨key, target, isKey, leads, rfl⟩ := readInstruction_eq_ok isRead
  exact others.cons (.plain (fun _ => noMap) isKey leads)

/-- A call whose callee is looked up shows an instruction with the address of the invocation. -/
theorem exists_of_addMapped {callAddress : Nat} {callMethod : Option Nat}
    (isAdded : method.addMapped call callAddress callMethod = .ok added) :
    ∃ key, hexadecimal? call.address = some key ∧
      added = method.add { Instruction.ofCode key ("0x" ++ call.address) call.code none with
        callAddress := some callAddress, callMethod } := by
  rcases bind_eq_ok_iff.1 isAdded with ⟨instruction, isRead, equal⟩
  obtain rfl := Except.ok.inj equal
  obtain ⟨key, target, isKey, leads, rfl⟩ := readInstruction_eq_ok isRead
  cases leads
  exact ⟨key, isKey, rfl⟩

theorem GivesCode.cons_addMapped {callAddress : Nat} {map pc : Text}
    {shown : List ((Text × Text) × List Text)}
    (isCall : architecture.callCode.accepts call.code = true)
    (isMap : stackMapLine.first? map = some pc) (isAddress : hexadecimal? pc = some callAddress)
    (isAdded : method.addMapped call callAddress none = .ok added)
    (noInfo : ∀ line ∈ below.head?, inlineInfoLine.accepts line = false)
    (others : GivesCode architecture added shown given) :
    GivesCode architecture method (((call.address, call.code), map :: below) :: shown) given := by
  obtain ⟨key, isKey, rfl⟩ := exists_of_addMapped isAdded
  exact others.cons (.mapped isCall isMap isKey isAddress noInfo)

theorem afterDex_cons {line : Text} (isMark : marksDex line = true) (lines : List Text) :
    afterDex (line :: lines) = lines := by
  rw [afterDex, List.dropWhile_cons_of_neg (by simp [isMark])]
  rfl

theorem afterDex_cons_of_ne {line : Text} (noMark : ¬marksDex line = true) (lines : List Text) :
    afterDex (line :: lines) = afterDex lines := by
  rw [afterDex, List.dropWhile_cons_of_pos (by simp [noMark]), afterDex]

theorem native?_cons {line : Text} (isMark : marksCode line = true) (lines : List Text) :
    native? (line :: lines) = some (line, lines) := by
  rw [native?, List.dropWhile_cons_of_neg (by simp [isMark])]

theorem native?_cons_of_ne {line : Text} (noMark : ¬marksCode line = true) (lines : List Text) :
    native? (line :: lines) = native? lines := by
  rw [native?, List.dropWhile_cons_of_pos (by simp [noMark]), native?]

theorem head?_takeWhile_subset {α : Type} {property : α → Bool} {left : List α} {head : α}
    (member : head ∈ (left.takeWhile property).head?) : head ∈ left.head? := by
  cases left with
  | nil => cases member
  | cons first left =>
      rw [List.takeWhile_cons] at member
      split at member
      · exact member
      · cases member

theorem givesCode_stepInCode (stepped : stepInCode architecture method line = .ok next)
    (gives : next.Gives architecture own given) :
    GivesCode architecture method (codeRanges (line :: own)) given := by
  unfold stepInCode at stepped
  split at stepped
  case h_1 noCode =>
    obtain rfl := Except.ok.inj stepped
    rw [codeRanges, ranges_cons_of_none noCode]
    exact gives
  case h_2 address code isCode =>
    rw [codeRanges, ranges_cons_of_some isCode]
    split at stepped
    case isTrue isCall =>
      obtain rfl := Except.ok.inj stepped
      exact gives isCall
    case isFalse noCall =>
      rcases bind_eq_ok_iff.1 stepped with ⟨instruction, isRead, equal⟩
      obtain rfl := Except.ok.inj equal
      obtain ⟨key, target, isKey, leads, rfl⟩ := readInstruction_eq_ok isRead
      exact GivesCode.cons (.plain (fun isCall => absurd isCall noCall) isKey leads) gives

theorem givesNative_stepBeforeCode {head : MethodHead} {references : NatMap Text}
    (stepped : stepBeforeCode head references line = .ok next)
    (gives : next.Gives architecture own given) :
    GivesNative architecture head references (line :: own) given := by
  unfold stepBeforeCode at stepped
  split at stepped
  case isTrue isMark =>
    rw [GivesNative, native?_cons isMark]
    split at stepped
    case h_1 noSize =>
      obtain rfl := Except.ok.inj stepped
      exact ⟨none, noSize ▸ .none, gives⟩
    case h_2 size isSize =>
      rcases bind_eq_ok_iff.1 stepped with ⟨codeSize, isNumber, equal⟩
      obtain rfl := Except.ok.inj equal
      exact ⟨some codeSize, isSize ▸ .some (number_eq_ok_iff.1 isNumber), gives⟩
  case isFalse noMark =>
    obtain rfl := Except.ok.inj stepped
    rw [GivesNative, native?_cons_of_ne noMark]
    exact gives

theorem gives_stepInMethod {position : Position}
    (stepped : stepInMethod architecture line position = .ok next)
    (gives : next.Gives architecture own given) :
    position.Gives architecture (line :: own) given := by
  cases position with
  | betweenMethods =>
      obtain rfl := Except.ok.inj stepped
      exact gives
  | beforeEcho head =>
      obtain rfl := Except.ok.inj stepped
      by_cases isMark : startsWith (trim line) "DEX CODE:" = true
      · rw [if_pos isMark] at gives
        rw [Position.Gives, afterDex_cons isMark]
        exact gives
      · rw [if_neg isMark] at gives
        rw [Position.Gives, afterDex_cons_of_ne isMark]
        exact gives
  | inEcho head references =>
      rw [stepInMethod] at stepped
      split at stepped
      case h_1 noDex =>
        refine ⟨references, ?_, givesNative_stepBeforeCode stepped gives⟩
        rw [List.takeWhile_cons_of_neg (by simp [accepts, noDex])]
        rfl
      case h_2 address code isDex =>
        -- a line of the DEX code is taken in by the fold, and it is not the mark that is looked for
        have accepted : dexLine.accepts line = true := by simp [accepts, isDex]
        have noMark : ¬marksCode line = true := fun isMark => by
          simp [dexLine_of_marksCode isMark] at accepted
        obtain ⟨table, inserted, inEcho⟩ : ∃ table, insertInvocation references line = some table ∧
            GivesBoth architecture head table own given := by
          rw [insertInvocation, isDex]
          split at stepped
          case h_1 noInvocation =>
            obtain rfl := Except.ok.inj stepped
            exact ⟨references, by simp [noInvocation], gives⟩
          case h_2 name isInvocation =>
            rcases bind_eq_ok_iff.1 stepped with ⟨key, isKey, equal⟩
            obtain rfl := Except.ok.inj equal
            exact ⟨_, by simp [isInvocation, number_eq_ok_iff.1 isKey], gives⟩
        obtain ⟨final, folded, native⟩ := inEcho
        refine ⟨final, ?_, ?_⟩
        · rw [List.takeWhile_cons_of_pos accepted, List.foldlM_cons, inserted]
          exact folded
        · rw [GivesNative, native?_cons_of_ne noMark]
          exact native
  | beforeCode head references => exact givesNative_stepBeforeCode stepped gives
  | inCode method => exact givesCode_stepInCode stepped gives
  | afterCall method call =>
      intro isCall
      rw [stepInMethod] at stepped
      split at stepped
      case h_1 pc isMap =>
        rcases bind_eq_ok_iff.1 stepped with ⟨callAddress, isAddress, equal⟩
        obtain rfl := Except.ok.inj equal
        -- as no line of code, the line stays in the range of the call
        have noCode : codeLine.first? line = none :=
          (beginsWith_of_stackMapLine (by simp [accepts, isMap])).codeLine (by decide)
        rw [List.takeWhile_cons_of_pos (by simp [accepts, noCode]), codeRanges,
          ranges_cons_of_none noCode]
        exact gives isCall line pc isMap (number_eq_ok_iff.1 isAddress)
      case h_2 noMap =>
        rcases bind_eq_ok_iff.1 stepped with ⟨added, isAdded, stepped⟩
        refine GivesCode.cons_addUnmapped isAdded ?_ (givesCode_stepInCode stepped gives)
        intro other member
        obtain rfl := Option.some.inj (head?_takeWhile_subset member)
        simp [accepts, noMap]
  | afterStackMap method call callAddress =>
      intro isCall map pc isMap isAddress
      rw [stepInMethod] at stepped
      split at stepped
      case h_1 inlinedPc index isInfo =>
        rcases bind_eq_ok_iff.1 stepped with ⟨inlinedAddress, isInlined, stepped⟩
        rcases bind_eq_ok_iff.1 stepped with ⟨inlinedMethod, isMethod, stepped⟩
        rcases map_eq_ok_iff.1 stepped with ⟨added, isAdded, rfl⟩
        obtain ⟨key, isKey, rfl⟩ := exists_of_addMapped isAdded
        have noCode : codeLine.first? line = none :=
          (beginsWith_of_inlineInfoLine (by simp [accepts, isInfo])).codeLine (by decide)
        rw [List.takeWhile_cons_of_pos (by simp [accepts, noCode]), codeRanges,
          ranges_cons_of_none noCode]
        exact GivesCode.cons (.inlined isCall isMap isInfo isKey (number_eq_ok_iff.1 isInlined)
          (number_eq_ok_iff.1 isMethod)) gives
      case h_2 noInfo =>
        rcases bind_eq_ok_iff.1 stepped with ⟨added, isAdded, stepped⟩
        refine GivesCode.cons_addMapped isCall isMap isAddress isAdded ?_
          (givesCode_stepInCode stepped gives)
        intro other member
        obtain rfl := Option.some.inj (head?_takeWhile_subset member)
        simp [accepts, noInfo]

/-- What no more lines give, where a method or a class is opened or the dump ends. -/
theorem exists_gives_of_leave {parent closed : OpenClass} {position : Position}
    (left : leave architecture parent position = .ok closed) :
    ∃ given, position.Gives architecture [] given ∧
      closed = { parent with methods := parent.methods ++ given } := by
  rcases bind_eq_ok_iff.1 left with ⟨settled, isSettled, left⟩
  have noLines (method : OpenMethod) :
      GivesCode architecture method [] [method.complete architecture] := ⟨[], .nil, by simp⟩
  cases position with
  | betweenMethods =>
      obtain rfl := Except.ok.inj isSettled
      obtain rfl := Except.ok.inj left
      exact ⟨[], rfl, by simp⟩
  | beforeEcho head =>
      obtain rfl := Except.ok.inj isSettled
      obtain rfl := Except.ok.inj left
      exact ⟨[], ⟨.empty, rfl, rfl⟩, by simp⟩
  | inEcho head references =>
      obtain rfl := Except.ok.inj isSettled
      obtain rfl := Except.ok.inj left
      exact ⟨[], ⟨references, rfl, rfl⟩, by simp⟩
  | beforeCode head references =>
      obtain rfl := Except.ok.inj isSettled
      obtain rfl := Except.ok.inj left
      exact ⟨[], rfl, by simp⟩
  | inCode method =>
      obtain rfl := Except.ok.inj isSettled
      obtain rfl := Except.ok.inj left
      exact ⟨_, noLines method, rfl⟩
  | afterCall method call =>
      rcases map_eq_ok_iff.1 isSettled with ⟨added, isAdded, rfl⟩
      obtain rfl := Except.ok.inj left
      exact ⟨_, fun _ => GivesCode.cons_addUnmapped isAdded (by simp) (noLines added), rfl⟩
  | afterStackMap method call callAddress =>
      rcases map_eq_ok_iff.1 isSettled with ⟨added, isAdded, rfl⟩
      obtain rfl := Except.ok.inj left
      refine ⟨_, fun isCall map pc isMap isAddress => ?_, rfl⟩
      exact GivesCode.cons_addMapped isCall isMap isAddress isAdded (by simp) (noLines added)

/-- The line that opens a method and its own lines give the method if it has code, else nothing. -/
theorem givesMethod_of_gives {declaration : Text × Text} {head : MethodHead}
    (isHead : declaration.1 = head.header ∧ decimal? declaration.2 = some head.index)
    (gives : (Position.beforeEcho head).Gives architecture own given) :
    List.Forall₂ (GivesMethod architecture) ([(declaration, own)].filter hasCode) given := by
  rcases gives with ⟨table, folded, native⟩
  unfold GivesNative at native
  split at native
  case h_1 noCode =>
    subst native
    simp [hasCode, noCode]
  case h_2 mark lines isNative =>
    rcases native with ⟨codeSize, isSize, instructions, areShown, rfl⟩
    have keeps : hasCode (declaration, own) = true := by simp [hasCode, isNative]
    rw [List.filter_singleton, keeps]
    refine .cons ⟨isHead.1.symm, ⟨head.index, isHead.2, rfl⟩, rfl, folded, mark, lines, isNative,
      isSize, ?_⟩ .nil
    simpa [OpenMethod.complete] using areShown

end position

end CompiledViews.Dump.Oatdump
