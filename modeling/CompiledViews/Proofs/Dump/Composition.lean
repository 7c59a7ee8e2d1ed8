import CompiledViews.Dump.Content
import CompiledViews.Proofs.Dump.Reading
import CompiledViews.Proofs.Text.Lines

/-!
# Dumps one after the other

A `javap` or a `dexdump` dump can end only between two classes, where the machine that reads it
knows nothing of what it has read. So a dump that is read and ends in a line feed does nothing to
what follows it: its classes come first, and the classes or the error of the dump behind it are what
that dump gives by itself, but for the numbers of its lines. Sections of classes that are built in
complete no class, so a dump of nothing else leaves no trace.
-/

namespace CompiledViews.Dump

open Text

/-- The error as it is if further lines come before the dump. -/
def Error.below (count : Nat) : Error → Error
  | unexpectedLine lineNumber expected found => unexpectedLine (count + lineNumber) expected found
  | unexpectedEnd expected => unexpectedEnd expected
  | invalidNumber lineNumber value => invalidNumber (count + lineNumber) value
  | unknownInstructionSet name => unknownInstructionSet name

theorem Fault.locate_add (fault : Fault) (count before : Nat) :
    fault.locate (count + before) = (fault.locate before).below count := by
  have moved (place : Place) :
      place.lineNumber (count + before) = count + place.lineNumber before := by
    cases place <;> rfl
  cases fault <;> simp [locate, Error.below, moved]

namespace Machine

variable {Scope : Type} {machine : Machine Scope}

/-- Lines that come before a dump change nothing but the number of the line of an error. -/
theorem feed_add (count before : Nat) (scope : Scope) (lines : List Text) :
    machine.feed (count + before) scope lines =
      (machine.feed before scope lines).mapError (Error.below count) := by
  induction lines generalizing before scope with
  | nil => rfl
  | cons line lines ih =>
      rw [feed, feed]
      cases machine.step scope line with
      | error fault => simp [Except.mapError, fault.locate_add]
      | ok result =>
          simp only [Nat.add_assoc, ih]
          cases machine.feed (before + 1) result.2 lines <;> rfl

/-- Lines that are fed with success hand on the scope in which they end. -/
theorem feed_append {before : Nat} {scope middle : Scope} {first : List Text}
    {completed : List Class} (fed : machine.feed before scope first = .ok (completed, middle))
    (second : List Text) :
    machine.feed before scope (first ++ second) =
      (machine.feed (before + first.length) middle second).map
        fun result => (completed ++ result.1, result.2) := by
  induction first generalizing before scope completed with
  | nil =>
      obtain ⟨rfl, rfl⟩ := by simpa [feed] using fed
      rw [List.nil_append, List.length_nil, Nat.add_zero]
      cases machine.feed before scope second <;> rfl
  | cons line first ih =>
      rw [feed] at fed
      split at fed
      case h_1 _ => cases fed
      case h_2 early next stepped =>
        split at fed
        case h_1 _ => cases fed
        case h_2 late last fedFirst =>
          obtain ⟨rfl, rfl⟩ := by simpa using fed
          rw [List.cons_append, feed, stepped]
          simp only [ih fedFirst, List.length_cons, Nat.add_assoc, Nat.add_comm 1]
          cases machine.feed (before + (first.length + 1)) last second <;>
            simp [Except.map, List.append_assoc]

/-- The classes that lines and the end of the dump after them complete from a scope on, where
`before` lines come before them. -/
def readFrom (machine : Machine Scope) (before : Nat) (scope : Scope) (lines : List Text) :
    Except Error (List Class) :=
  match machine.feed before scope lines with
  | .error error => .error error
  | .ok (completed, final) =>
    match machine.finish final with
    | .error fault => .error (fault.locate (before + lines.length))
    | .ok last => .ok (completed ++ last)

theorem read_eq_readFrom (text : Text) :
    machine.read text = machine.readFrom 0 machine.start (Text.lines text) := by
  rw [read, readLines, readFrom]
  rcases machine.feed 0 machine.start (Text.lines text) with error | ⟨completed, final⟩
  · rfl
  · dsimp only
    cases machine.finish final with
    | error fault => simp only [Nat.zero_add]
    | ok last => rfl

theorem readFrom_add (count before : Nat) (scope : Scope) (lines : List Text) :
    machine.readFrom (count + before) scope lines =
      (machine.readFrom before scope lines).mapError (Error.below count) := by
  rw [readFrom, readFrom, feed_add]
  cases machine.feed before scope lines with
  | error error => rfl
  | ok result =>
      simp only [Except.mapError, Nat.add_assoc, Fault.locate_add]
      cases machine.finish result.2 <;> rfl

/-- What is read behind lines that are fed with success is read from the scope in which they end. -/
theorem readFrom_append {before : Nat} {scope middle : Scope} {first : List Text}
    {completed : List Class} (fed : machine.feed before scope first = .ok (completed, middle))
    (second : List Text) :
    machine.readFrom before scope (first ++ second) =
      (machine.readFrom (before + first.length) middle second).map (completed ++ ·) := by
  rw [readFrom, readFrom, feed_append fed]
  cases machine.feed (before + first.length) middle second with
  | error error => rfl
  | ok result =>
      simp only [Except.map, List.length_append, Nat.add_assoc]
      cases machine.finish result.2 <;> simp

/-- A dump can end only where it can begin, and its end completes no class. -/
def EndsAtStart (machine : Machine Scope) : Prop :=
  ∀ scope classes, machine.finish scope = .ok classes → scope = machine.start ∧ classes = []

/-- What follows a dump that is read is read as if it stood alone, and its errors are as many lines
further down as the dump has. -/
theorem EndsAtStart.read_append (ends : machine.EndsAtStart) {front : Text}
    (closed : front.IsClosed) {classes : List Class} (accepted : machine.read front = .ok classes)
    (back : Text) :
    machine.read (front ++ back) =
      ((machine.read back).map (classes ++ ·)).mapError
        (Error.below (Text.lines front).length) := by
  rcases read_eq_ok_iff.1 accepted with ⟨completed, final, last, reading, finished, rfl⟩
  obtain ⟨rfl, rfl⟩ := ends final last finished
  rw [read_eq_readFrom, read_eq_readFrom, lines_append closed back,
    readFrom_append (reading.feed 0), Nat.add_comm, readFrom_add, List.append_nil]
  cases machine.readFrom 0 machine.start (Text.lines back) <;> rfl

/-- As long as each line keeps a machine quiet, no class is completed. -/
theorem Reading.eq_nil_of_quiet {IsQuiet : Scope → Prop} {scope final : Scope} {lines : List Text}
    {completed : List Class} (reading : machine.Reading scope lines completed final)
    (step : ∀ line ∈ lines, ∀ scope completed next, IsQuiet scope →
      machine.step scope line = .ok (completed, next) → completed = [] ∧ IsQuiet next)
    (start : IsQuiet scope) : completed = [] := by
  induction reading with
  | done scope => rfl
  | line stepped others ih =>
      obtain ⟨stepHere, stepLater⟩ := List.forall_mem_cons.1 step
      obtain ⟨rfl, quiet⟩ := stepHere _ _ _ start stepped
      exact ih stepLater quiet

theorem EndsAtStart.eq_nil_of_quiet (ends : machine.EndsAtStart) {IsQuiet : Scope → Prop}
    {text : Text} {classes : List Class} (accepted : machine.read text = .ok classes)
    (step : ∀ line ∈ Text.lines text, ∀ scope completed next, IsQuiet scope →
      machine.step scope line = .ok (completed, next) → completed = [] ∧ IsQuiet next)
    (start : IsQuiet machine.start) : classes = [] := by
  obtain ⟨completed, final, last, reading, finished, rfl⟩ := read_eq_ok_iff.1 accepted
  rw [reading.eq_nil_of_quiet step start, (ends final last finished).2]
  rfl

end Machine

theorem Javap.endsAtStart : Javap.machine.EndsAtStart := by
  intro scope classes finished
  cases scope with
  | betweenClasses => exact ⟨rfl, (Except.ok.inj finished).symm⟩
  | _ => cases finished

theorem Dexdump.endsAtStart : Dexdump.machine.EndsAtStart := by
  intro scope classes finished
  cases scope with
  | betweenClasses => exact ⟨rfl, (Except.ok.inj finished).symm⟩
  | inPositions parent method table =>
      obtain ⟨next, -, failed⟩ := bind_eq_ok_iff.1 finished
      cases failed
  | _ => cases finished

/-! ### Classes that are built in -/

namespace Javap

/-- Whether a scope is between classes or in a class that is built in. -/
def Scope.IsQuiet : Scope → Prop
  | betweenClasses => True
  | inClass parent | afterHeader parent _ | inCode parent _ | inSwitch parent _ _ _
  | beforeTable parent _ | inTable parent _ _ => isBuiltIn parent.name = true

variable {parent : OpenClass} {scope next : Scope} {line : Text} {completed : List Class}

theorem isQuiet_of_stepInClass (builtIn : isBuiltIn parent.name = true)
    (stepped : stepInClass parent line = (completed, next)) : completed = [] ∧ next.IsQuiet := by
  unfold stepInClass at stepped
  split at stepped
  · obtain ⟨rfl, rfl⟩ := Prod.mk.inj stepped
    exact ⟨if_pos builtIn, trivial⟩
  · split at stepped <;>
    · obtain ⟨rfl, rfl⟩ := Prod.mk.inj stepped
      exact ⟨rfl, builtIn⟩

theorem isQuiet_of_stepBeforeTable {method : OpenMethod} (builtIn : isBuiltIn parent.name = true)
    (stepped : stepBeforeTable parent method line = (completed, next)) :
    completed = [] ∧ next.IsQuiet := by
  unfold stepBeforeTable at stepped
  split at stepped
  · have sameName : isBuiltIn (parent.add method .empty).name = true := builtIn
    exact isQuiet_of_stepInClass sameName stepped
  · split at stepped <;>
    · obtain ⟨rfl, rfl⟩ := Prod.mk.inj stepped
      exact ⟨rfl, builtIn⟩

/-- A line that opens no other class than one that is built in keeps the reader quiet. -/
theorem isQuiet_of_step (quiet : scope.IsQuiet)
    (opensBuiltIn : ∀ opened ∈ classLine.first? line, isBuiltIn opened.2 = true)
    (stepped : step scope line = .ok (completed, next)) : completed = [] ∧ next.IsQuiet := by
  cases scope with
  | betweenClasses =>
      rw [step] at stepped
      split at stepped
      case h_1 header name opens =>
        obtain ⟨rfl, rfl⟩ := Prod.mk.inj (Except.ok.inj stepped)
        exact ⟨rfl, opensBuiltIn _ opens⟩
      case h_2 _ =>
        obtain ⟨rfl, rfl⟩ := Prod.mk.inj (Except.ok.inj stepped)
        exact ⟨rfl, trivial⟩
  | inClass parent => exact isQuiet_of_stepInClass quiet (Except.ok.inj stepped)
  | afterHeader parent header =>
      rw [step] at stepped
      split at stepped
      case isTrue _ =>
        obtain ⟨rfl, rfl⟩ := Prod.mk.inj (Except.ok.inj stepped)
        exact ⟨rfl, quiet⟩
      case isFalse _ => exact isQuiet_of_stepInClass quiet (Except.ok.inj stepped)
  | inCode parent method =>
      rw [step] at stepped
      split at stepped
      case h_1 _ => exact isQuiet_of_stepBeforeTable quiet (Except.ok.inj stepped)
      case h_2 address code _ =>
        obtain ⟨instruction, -, stepped⟩ := bind_eq_ok_iff.1 stepped
        split at stepped <;>
        · obtain ⟨rfl, rfl⟩ := Prod.mk.inj (Except.ok.inj stepped)
          exact ⟨rfl, quiet⟩
  | inSwitch parent method switch cases =>
      rw [step] at stepped
      split at stepped <;>
      · obtain ⟨rfl, rfl⟩ := Prod.mk.inj (Except.ok.inj stepped)
        exact ⟨rfl, quiet⟩
  | beforeTable parent method => exact isQuiet_of_stepBeforeTable quiet (Except.ok.inj stepped)
  | inTable parent method table =>
      rw [step] at stepped
      split at stepped
      case h_1 _ =>
        have sameName : isBuiltIn (parent.add method table).name = true := quiet
        exact isQuiet_of_stepInClass sameName (Except.ok.inj stepped)
      case h_2 sourceLine address _ =>
        obtain ⟨value, -, stepped⟩ := bind_eq_ok_iff.1 stepped
        obtain ⟨key, -, stepped⟩ := bind_eq_ok_iff.1 stepped
        obtain ⟨rfl, rfl⟩ := Prod.mk.inj (Except.ok.inj stepped)
        exact ⟨rfl, quiet⟩

end Javap

namespace Dexdump

/-- Whether a scope is outside of classes: those that are built in are not even opened. -/
def Scope.IsQuiet : Scope → Prop
  | betweenClasses | beforeDescriptor => True
  | _ => False

/-- A line that names no other class than one that is built in keeps the reader quiet. -/
theorem isQuiet_of_step {scope next : Scope} {line : Text} {completed : List Class}
    (quiet : scope.IsQuiet) (namesBuiltIn : ∀ name ∈ className? line, isBuiltIn name = true)
    (stepped : step scope line = .ok (completed, next)) : completed = [] ∧ next.IsQuiet := by
  cases scope with
  | betweenClasses =>
      obtain ⟨rfl, rfl⟩ := Prod.mk.inj (Except.ok.inj stepped)
      refine ⟨rfl, ?_⟩
      split <;> trivial
  | beforeDescriptor =>
      -- the only step into a class, which the reader of this format does not take for built-in ones
      obtain ⟨opened, described, equal⟩ := map_eq_ok_iff.1 stepped
      obtain ⟨rfl, rfl⟩ := Prod.mk.inj equal
      rw [stepDescriptor] at described
      split at described
      case h_1 _ => cases described
      case h_2 name isName =>
        obtain rfl := Except.ok.inj described
        rw [if_pos (namesBuiltIn name isName)]
        exact ⟨rfl, trivial⟩
  | _ => cases quiet

end Dexdump

namespace Format

/-- The name of the class that a line of a dump names, where its reader looks for one. -/
def className? : Format → Text → Option Text
  | javap, line => (Javap.classLine.first? line).map (·.2)
  | dexdump, line => Dexdump.className? line
  | oatdump, line => (Oatdump.classLine.first? line).map (replaceChar '/' '.')

/-- A `javap` or a `dexdump` dump that names no other classes than ones that are built in gives no
class. -/
theorem eq_nil_of_builtIn {format : Format} (isSectioned : format = .javap ∨ format = .dexdump)
    {text : Text} {classes : List Class} (accepted : format.read text = .ok classes)
    (builtIn : ∀ line ∈ Text.lines text, ∀ name ∈ format.className? line, isBuiltIn name = true) :
    classes = [] := by
  rcases isSectioned with rfl | rfl
  · have start : Javap.Scope.IsQuiet .betweenClasses := trivial
    refine Javap.endsAtStart.eq_nil_of_quiet accepted ?_ start
    intro line isLine scope completed next quiet
    refine Javap.isQuiet_of_step quiet fun opened opens => ?_
    exact builtIn line isLine opened.2 (Option.map_eq_some_iff.2 ⟨opened, opens, rfl⟩)
  · have start : Dexdump.Scope.IsQuiet .betweenClasses := trivial
    refine Dexdump.endsAtStart.eq_nil_of_quiet accepted ?_ start
    intro line isLine scope completed next quiet
    exact Dexdump.isQuiet_of_step quiet (builtIn line isLine)

/-- A `javap` or a `dexdump` dump that is read, and is empty or ends in a line feed, leaves no trace
but its classes: if what follows it is read by itself, both together give the classes of the one and
then those of the other, and if it is not, its error is the same with as many lines before it as the
dump has. It leaves none at all if the classes that it names are built in, since then it has no
classes. -/
theorem composes_of_read {format : Format} (isSectioned : format = .javap ∨ format = .dexdump)
    {front : Text} (closed : front.IsClosed) {classes : List Class}
    (accepted : format.read front = .ok classes) (back : Text) :
    (∀ others, format.read back = .ok others →
        format.read (front ++ back) = .ok (classes ++ others)) ∧
      (∀ error, format.read back = .error error →
        format.read (front ++ back) = .error (error.below (Text.lines front).length)) ∧
      ((∀ line ∈ Text.lines front, ∀ name ∈ format.className? line, isBuiltIn name = true) →
        classes = []) := by
  have whole : format.read (front ++ back) =
      ((format.read back).map (classes ++ ·)).mapError
        (Error.below (Text.lines front).length) := by
    rcases isSectioned with rfl | rfl
    · exact Javap.endsAtStart.read_append closed accepted back
    · exact Dexdump.endsAtStart.read_append closed accepted back
  refine ⟨fun others isRead => ?_, fun error failed => ?_, eq_nil_of_builtIn isSectioned accepted⟩
  · rw [whole, isRead]
    rfl
  · rw [whole, failed]
    rfl

/-- The section of a class that is built in, and of one that is not. -/
def quietSections : Text :=
  "Class #0\n Class descriptor : 'Ljava/lang/A;'\n insns size : 1\n source_file_idx : 1\n" ++
    "Class #1\n Class descriptor : 'LDuo;'\n insns size : 1\n|[0] Duo.f:()V\n positions :\n" ++
    " source_file_idx : 0\n"

def quietClasses : List Class :=
  [{ header := "class Duo"
     methods :=
       [{ header := "void Duo.f()", index := none, codeSize := some 2, isa := .dex
          instructions := [], references := .empty }] }]

/-- A section whose method has no signature. -/
def brokenSection : Text := "Class #2\n Class descriptor : 'LUno;'\n insns size : 1\n|[0] Uno\n"

theorem read_quietSections : dexdump.read quietSections = .ok quietClasses := by
  -- The kernel is slow at taking strings apart, so that is done before.
  unfold quietSections quietClasses
  repeat rewrite [String.toList_ofList]
  decide +kernel

theorem read_brokenSection :
    dexdump.read brokenSection = .error (.unexpectedLine 4 .methodSignature "|[0] Uno") := by
  unfold brokenSection
  repeat rewrite [String.toList_ofList]
  decide

/-- The error in the fourth line of the section that follows ten lines is one in the fourteenth
line. -/
theorem composes_of_read_brokenSection :
    quietSections.IsClosed ∧ dexdump.read quietSections = .ok quietClasses ∧
      dexdump.read (quietSections ++ quietSections) = .ok (quietClasses ++ quietClasses) ∧
      dexdump.read (quietSections ++ brokenSection) =
        .error (.unexpectedLine 14 .methodSignature "|[0] Uno") := by
  have shape : quietSections.IsClosed ∧ (Text.lines quietSections).length = 10 := by
    unfold quietSections
    repeat rewrite [String.toList_ofList]
    decide
  rcases shape with ⟨closed, isLong⟩
  refine ⟨closed, read_quietSections, ?_, ?_⟩
  · exact (composes_of_read (.inr rfl) closed read_quietSections _).1 _ read_quietSections
  · have moved := (composes_of_read (.inr rfl) closed read_quietSections _).2.1 _ read_brokenSection
    rw [isLong] at moved
    exact moved

end Format

end CompiledViews.Dump
