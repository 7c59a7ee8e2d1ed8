import CompiledViews.Dump.Dexdump
import CompiledViews.Proofs.Dump.Reading
import Mathlib.Data.List.Forall2

/-!
# The grammar of `dexdump` dumps

What the lines of a dump are for the reader, without the reader. A class is read from a section, and
a method from an excerpt of that section: a line that announces the size of its code, its signature,
the instructions, lines up to the mark of the line number table, and the entries of the table. The
dump is read as the grammar says. It does not bound the lines that stand before the mark, so these
may well be lines of another method or of another class.
-/

namespace CompiledViews.Dump.Dexdump

open Text Text.Form

/-- Whether a line opens the section of a class. -/
def opensClass (line : Text) : Bool := startsWith (trim line) "Class #"

/-- Whether a line ends the section of a class. -/
def endsClass (line : Text) : Bool := startsWith (trim line) "source_file_idx"

/-- Whether a line announces the code of a method. -/
def announcesCode (line : Text) : Bool := startsWith (trim line) "insns size"

/-- Whether a line is the mark of a line number table. -/
def marksPositions (line : Text) : Bool := startsWith (trim line) "positions"

/-- The address and the source line that an entry of a line number table tells. -/
def entryOf (line : Text) : Option (Nat × Nat) :=
  match positionLine.first? line with
  | some (address, sourceLine) => (hexadecimal? address).bind fun key =>
      (decimal? sourceLine).map fun value => (key, value)
  | none => none

/-- A line number table with a further entry. -/
def insertEntry (table : NatMap Nat) (line : Text) : NatMap Nat :=
  match entryOf line with
  | some (address, sourceLine) => table.insert address sourceLine
  | none => table

/-- The lines that a method is read from. -/
structure Excerpt where
  announcement : Text
  signature : Text
  code : List Text
  gap : List Text
  mark : Text
  entries : List Text

namespace Excerpt

/-- The lines below the one that announces the code. -/
def below (part : Excerpt) : List Text :=
  part.signature :: (part.code ++ (part.gap ++ part.mark :: part.entries))

/-- The lines of an excerpt give a method of a class with the given name. -/
structure Gives (part : Excerpt) (className : Text) (method : Method) : Prop where
  announces : announcesCode part.announcement = true
  code : ∀ line ∈ part.code, startsWith line " " = false
  spaced : ∀ line ∈ (part.gap ++ [part.mark]).head?, startsWith line " " = true
  gap : ∀ line ∈ part.gap, marksPositions line = false
  mark : marksPositions part.mark = true
  entries : ∀ line ∈ part.entries, (entryOf line).isSome = true
  method : ∃ size name descriptor result parameters instructions,
    codeSize (trim part.announcement) = .ok size ∧
    splitOnce ":" (afterLast '.' part.signature) = some (name, descriptor) ∧
    Descriptor.decode descriptor = some (result, parameters) ∧
    List.Forall₂ (fun line instruction => readInstruction line = .ok instruction) part.code
      instructions ∧
    method =
      { header := result ++ " " ++ className ++ "." ++ name ++ "(" ++ join ", " parameters ++ ")"
        index := none
        codeSize := some size
        isa := .dex
        instructions := Instruction.withLineNumbers (part.entries.foldl insertEntry .empty)
          instructions
        references := .empty }

end Excerpt

/-- The lines of a class, from which methods are read in order. -/
inductive Body (className : Text) : List Text → List Method → Prop where
  | done : Body className [] []
  | other {line : Text} {rest : List Text} {methods : List Method}
      (noCode : announcesCode line = false) (noEnd : endsClass line = false)
      (others : Body className rest methods) : Body className (line :: rest) methods
  | method {part : Excerpt} {method : Method} {rest : List Text} {methods : List Method}
      (gives : part.Gives className method)
      (noEntry : ∀ line ∈ rest.head?, positionLine.accepts line = false)
      (others : Body className rest methods) :
      Body className (part.announcement :: part.below ++ rest) (method :: methods)

/-- The lines of a dump, from which classes are read in order. What the lines of a class that is not
built in are for its methods is said by `Holds`, with the name of the class. -/
inductive Sections (Holds : Text → List Text → List Method → Prop) :
    List Text → List Class → Prop where
  | done : Sections Holds [] []
  | other {line : Text} {rest : List Text} {classes : List Class}
      (noClass : opensClass line = false) (others : Sections Holds rest classes) :
      Sections Holds (line :: rest) classes
  | builtIn {opening descriptor name : Text} {rest : List Text} {classes : List Class}
      (opens : opensClass opening = true) (named : className? descriptor = some name)
      (isForeign : isBuiltIn name = true) (others : Sections Holds rest classes) :
      Sections Holds (opening :: descriptor :: rest) classes
  | own {opening descriptor name last : Text} {body rest : List Text} {methods : List Method}
      {classes : List Class} (opens : opensClass opening = true)
      (named : className? descriptor = some name) (isOwn : isBuiltIn name = false)
      (holds : Holds name body methods) (ends : endsClass last = true)
      (others : Sections Holds rest classes) :
      Sections Holds (opening :: descriptor :: (body ++ last :: rest))
        (OpenClass.complete ⟨name, methods⟩ ++ classes)

/-- A dump stays what it is if the lines of each class are seen in another way. -/
theorem Sections.mono {Holds Seen : Text → List Text → List Method → Prop} {lines : List Text}
    {classes : List Class} (sections : Sections Holds lines classes)
    (sees : ∀ name body methods, Holds name body methods → Seen name body methods) :
    Sections Seen lines classes := by
  induction sections with
  | done => exact .done
  | other noClass _ ih => exact .other noClass ih
  | builtIn opens named isForeign _ ih => exact .builtIn opens named isForeign ih
  | own opens named isOwn holds ends _ ih => exact .own opens named isOwn (sees _ _ _ holds) ends ih

section rest

/-! What the lines are that follow a scope. -/

variable (parent : OpenClass) (method : OpenMethod) (lines : List Text) (classes : List Class)

/-- Lines that follow in a class outside its methods. -/
def RestOfClass : Prop :=
  ∃ body last rest methods others, lines = body ++ last :: rest ∧
    Body parent.name body methods ∧ endsClass last = true ∧ Sections Body rest others ∧
    classes = { parent with methods := parent.methods ++ methods }.complete ++ others

/-- Lines that follow in a line number table. -/
def RestOfTable (table : NatMap Nat) : Prop :=
  ∃ entries rest next, lines = entries ++ rest ∧ (∀ line ∈ entries, (entryOf line).isSome = true) ∧
    (∀ line ∈ rest.head?, positionLine.accepts line = false) ∧
    parent.add method (entries.foldl insertEntry table) = .ok next ∧ RestOfClass next rest classes

/-- Lines that follow between the instructions of a method and the mark of its table. -/
def RestOfGap : Prop :=
  ∃ gap mark rest, lines = gap ++ mark :: rest ∧ (∀ line ∈ gap, marksPositions line = false) ∧
    marksPositions mark = true ∧ RestOfTable parent method rest classes .empty

/-- Lines that follow in the code of a method. -/
def RestOfCode : Prop :=
  ∃ code rest instructions, lines = code ++ rest ∧
    (∀ line ∈ code, startsWith line " " = false) ∧
    List.Forall₂ (fun line instruction => readInstruction line = .ok instruction) code
      instructions ∧
    (∀ line ∈ rest.head?, startsWith line " " = true) ∧
    RestOfGap parent { method with instructions := method.instructions ++ instructions } rest
      classes

/-- Lines that follow the announcement of a method. -/
def RestOfMethod (size : Nat) : Prop :=
  ∃ signature rest name descriptor, lines = signature :: rest ∧
    splitOnce ":" (afterLast '.' signature) = some (name, descriptor) ∧
    RestOfCode parent ⟨size, name, descriptor, []⟩ rest classes

/-- Lines that follow a scope and complete classes until none is open. -/
def Scope.Rest : Scope → Prop
  | betweenClasses => Sections Body lines classes
  | beforeDescriptor => ∃ descriptor name rest, lines = descriptor :: rest ∧
      className? descriptor = some name ∧
      if isBuiltIn name then Sections Body rest classes else RestOfClass ⟨name, []⟩ rest classes
  | inClass parent => RestOfClass parent lines classes
  | beforeSignature parent size => RestOfMethod parent lines classes size
  | inCode parent method => RestOfCode parent method lines classes
  | beforePositions parent method => RestOfGap parent method lines classes
  | inPositions parent method table => RestOfTable parent method lines classes table

end rest

section step

variable {parent : OpenClass} {line : Text} {rest : List Text} {early late : List Class}
  {next : Scope}

theorem OpenClass.add_eq_ok {parent next : OpenClass} {method : OpenMethod} {table : NatMap Nat}
    (added : parent.add method table = .ok next) :
    ∃ result parameters, Descriptor.decode method.descriptor = some (result, parameters) ∧
      next = { parent with
        methods := parent.methods ++
          [{ header := result ++ " " ++ parent.name ++ "." ++ method.name ++ "(" ++
               join ", " parameters ++ ")"
             index := none
             codeSize := some method.codeSize
             isa := .dex
             instructions := Instruction.withLineNumbers table method.instructions
             references := .empty }] } := by
  unfold OpenClass.add at added
  split at added
  case h_1 _ => cases added
  case h_2 result parameters decodes =>
    exact ⟨result, parameters, decodes, (Except.ok.inj added).symm⟩

/-- What follows the announcement of a method is the rest of an excerpt and of the class. -/
theorem RestOfMethod.restOfClass {size : Nat} (announces : announcesCode line = true)
    (isSize : codeSize (trim line) = .ok size) {classes : List Class}
    (follows : RestOfMethod parent rest classes size) :
    RestOfClass parent (line :: rest) classes := by
  rcases follows with ⟨signature, _, name, descriptor, rfl, isSigned, code, _, instructions, rfl,
    isCode, read, spaced, gap, mark, _, rfl, isGap, isMark, entries, _, next, rfl, areEntries,
    noEntry, added, body, last, rest, methods, others, rfl, holds, ends, sections, rfl⟩
  rcases OpenClass.add_eq_ok added with ⟨result, parameters, decodes, rfl⟩
  let part : Excerpt := ⟨line, signature, code, gap, mark, entries⟩
  have spacedMark : ∀ other ∈ (gap ++ [mark]).head?, startsWith other " " = true := by
    cases gap <;> simpa using spaced
  have noEntryInBody : ∀ other ∈ body.head?, positionLine.accepts other = false := by
    cases body
    · simp
    · simpa using noEntry
  have gives : part.Gives parent.name _ :=
    ⟨announces, isCode, spacedMark, isGap, isMark, areEntries, size, name, descriptor, result,
      parameters, instructions, isSize, isSigned, decodes, read, rfl⟩
  exact ⟨_, last, rest, _, others, by simp [part, Excerpt.below], .method gives noEntryInBody holds,
    ends, sections, by simp [part]⟩

theorem restOfClass_stepInClass (stepped : stepInClass parent line = .ok (early, next))
    (follows : next.Rest rest late) : RestOfClass parent (line :: rest) (early ++ late) := by
  unfold stepInClass at stepped
  split at stepped
  case isTrue ends =>
    rcases Prod.mk.inj (Except.ok.inj stepped) with ⟨rfl, rfl⟩
    exact ⟨[], line, rest, [], late, rfl, .done, ends, follows, by simp⟩
  case isFalse noEnd =>
    split at stepped
    case isTrue announces =>
      rcases map_eq_ok_iff.1 stepped with ⟨size, isSize, equal⟩
      rcases Prod.mk.inj equal with ⟨rfl, rfl⟩
      exact RestOfMethod.restOfClass announces isSize follows
    case isFalse noCode =>
      rcases Prod.mk.inj (Except.ok.inj stepped) with ⟨rfl, rfl⟩
      rcases follows with ⟨body, last, rest, methods, others, rfl, holds, ends, sections, rfl⟩
      exact ⟨line :: body, last, rest, methods, others, rfl,
        .other (eq_false_of_ne_true noCode) (eq_false_of_ne_true noEnd) holds, ends, sections, rfl⟩

theorem restOfGap_stepBeforePositions {method : OpenMethod}
    (follows : (stepBeforePositions parent method line).Rest rest late) :
    RestOfGap parent method (line :: rest) late := by
  unfold stepBeforePositions at follows
  split at follows
  case isTrue isMark => exact ⟨[], line, rest, rfl, by simp, isMark, follows⟩
  case isFalse noMark =>
    rcases follows with ⟨gap, mark, rest, rfl, isGap, isMark, table⟩
    refine ⟨line :: gap, mark, rest, rfl, ?_, isMark, table⟩
    exact List.forall_mem_cons.2 ⟨eq_false_of_ne_true noMark, isGap⟩

/-- A line and what follows the scope after it are what follows the scope before it. -/
theorem rest_step {scope : Scope} (stepped : step scope line = .ok (early, next))
    (follows : next.Rest rest late) : scope.Rest (line :: rest) (early ++ late) := by
  cases scope with
  | betweenClasses =>
      rcases Prod.mk.inj (Except.ok.inj stepped) with ⟨rfl, rfl⟩
      split at follows
      case isTrue opens =>
        rcases follows with ⟨descriptor, name, rest, rfl, named, follows⟩
        split at follows
        case isTrue isForeign => exact .builtIn opens named isForeign follows
        case isFalse isOwn =>
          rcases follows with ⟨body, last, rest, methods, others, rfl, holds, ends, sections, rfl⟩
          exact .own opens named (eq_false_of_ne_true isOwn) holds ends sections
      case isFalse noClass => exact .other (eq_false_of_ne_true noClass) follows
  | beforeDescriptor =>
      rcases map_eq_ok_iff.1 stepped with ⟨scope, isNamed, equal⟩
      rcases Prod.mk.inj equal with ⟨rfl, rfl⟩
      unfold stepDescriptor at isNamed
      split at isNamed
      case h_1 _ => cases isNamed
      case h_2 name named =>
        obtain rfl := Except.ok.inj isNamed
        refine ⟨line, name, rest, rfl, named, ?_⟩
        split
        case isTrue isForeign =>
          rw [if_pos isForeign] at follows
          exact follows
        case isFalse isOwn =>
          rw [if_neg isOwn] at follows
          exact follows
  | inClass parent => exact restOfClass_stepInClass stepped follows
  | beforeSignature parent size =>
      rcases map_eq_ok_iff.1 stepped with ⟨scope, isSigned, equal⟩
      rcases Prod.mk.inj equal with ⟨rfl, rfl⟩
      unfold stepSignature at isSigned
      split at isSigned
      case h_1 _ => cases isSigned
      case h_2 name descriptor isSplit =>
        obtain rfl := Except.ok.inj isSigned
        exact ⟨line, rest, name, descriptor, rfl, isSplit, follows⟩
  | inCode parent method =>
      rw [step] at stepped
      split at stepped
      case isTrue spaced =>
        rcases Prod.mk.inj (Except.ok.inj stepped) with ⟨rfl, rfl⟩
        -- the line that ends the code may be the mark itself
        refine ⟨[], line :: rest, [], rfl, by simp, .nil, by simpa using spaced, ?_⟩
        simpa using restOfGap_stepBeforePositions follows
      case isFalse isCode =>
        rcases map_eq_ok_iff.1 stepped with ⟨instruction, isRead, equal⟩
        rcases Prod.mk.inj equal with ⟨rfl, rfl⟩
        rcases follows with ⟨code, rest, instructions, rfl, areCode, areRead, spaced, gap⟩
        refine ⟨line :: code, rest, instruction :: instructions, rfl, ?_, .cons isRead areRead,
          spaced, by simpa [OpenMethod.add] using gap⟩
        exact List.forall_mem_cons.2 ⟨eq_false_of_ne_true isCode, areCode⟩
  | beforePositions parent method =>
      rcases Prod.mk.inj (Except.ok.inj stepped) with ⟨rfl, rfl⟩
      exact restOfGap_stepBeforePositions follows
  | inPositions parent method table =>
      rw [step] at stepped
      split at stepped
      case h_1 address sourceLine found =>
        rcases bind_eq_ok_iff.1 stepped with ⟨key, isKey, stepped⟩
        rcases bind_eq_ok_iff.1 stepped with ⟨value, isValue, stepped⟩
        rcases Prod.mk.inj (Except.ok.inj stepped) with ⟨rfl, rfl⟩
        have tells : entryOf line = some (key, value) := by
          simp [entryOf, found, number_eq_ok_iff.1 isValue, number_eq_ok_iff.1 isKey]
        rcases follows with ⟨entries, rest, next, rfl, areEntries, noEntry, added, restOfClass⟩
        refine ⟨line :: entries, rest, next, rfl, ?_, noEntry, ?_, restOfClass⟩
        · exact List.forall_mem_cons.2 ⟨by simp [tells], areEntries⟩
        · simpa [insertEntry, tells] using added
      case h_2 noEntry =>
        rcases bind_eq_ok_iff.1 stepped with ⟨next, added, stepped⟩
        refine ⟨[], line :: rest, next, rfl, by simp, ?_, by simpa using added,
          restOfClass_stepInClass stepped follows⟩
        simp [accepts, noEntry]

end step

/-- What is read from a scope until no class is open is what the grammar says of the lines. -/
theorem rest_of_reading {scope final : Scope} {lines : List Text} {classes : List Class}
    (reading : machine.Reading scope lines classes final) (ended : final = .betweenClasses) :
    scope.Rest lines classes := by
  induction reading with
  | done scope =>
      subst ended
      exact .done
  | line stepped others ih => exact rest_step stepped (ih ended)

/-- A dump that is read gives the classes that its lines hold by the grammar. -/
theorem sections_of_read {text : Text} {classes : List Class} (accepted : read text = .ok classes) :
    Sections Body (Text.lines text) classes := by
  rcases Machine.read_eq_ok_iff.1 accepted with ⟨completed, final, last, reading, finished, rfl⟩
  obtain ⟨ended, rfl⟩ : final = .betweenClasses ∧ last = [] := by
    cases final
    case inPositions parent method table =>
      rcases bind_eq_ok_iff.1 finished with ⟨next, _, failed⟩
      cases failed
    all_goals simp_all [machine, finish]
  rw [List.append_nil]
  exact rest_of_reading reading ended

end CompiledViews.Dump.Dexdump
