import CompiledViews.Dump.Oatdump
import CompiledViews.Proofs.Text.Exact
import CompiledViews.Proofs.Text.Leading

/-!
# Kinds of lines of an `oatdump` dump

A line that opens a class begins with a digit. The other lines begin with blanks, and what follows
these tells them apart: digits and a colon on a line that opens a method, `0x` on a line of code,
and a word on the lines below a call. So no line that the reader takes for the DEX code of a method
or for what belongs to a call opens a method or a class, and it makes no difference which of them is
looked for first.
-/

namespace CompiledViews.Dump.Oatdump

open Text Text.Form

/-- Whether the code of a method ends at a line, since it opens a method or a class. -/
def isBoundary (line : Text) : Bool := methodLine.accepts line || classLine.accepts line

/-- Whether a line is the mark of the DEX code of a method. -/
def marksDex (line : Text) : Bool := startsWith (trim line) "DEX CODE:"

/-- Whether a line is the mark of the native code of a method. -/
def marksCode (line : Text) : Bool := startsWith (trim line) "CODE:"

variable {line : Text}

theorem exists_of_accepts {α : Type} {form : Form α} (isForm : form.accepts line = true) :
    ∃ value, form.first? line = some value := Option.isSome_iff_exists.1 isForm

/-- On Arm64 all calls have the same code. -/
theorem eq_of_callCode_arm64 {code : Text}
    (isCall : Architecture.arm64.callCode.accepts code = true) : code = "blr lr" := by
  obtain ⟨_, found⟩ := exists_of_accepts isCall
  rcases Option.map_eq_some_iff.1 found with ⟨⟨_, _⟩, atHead, -⟩
  rcases List.mem_flatMap.1 (List.mem_of_head? atHead) with ⟨⟨_, rest⟩, isLiteral, isEnd⟩
  obtain rfl := eq_nil_of_mem_atEnd isEnd
  rw [mem_literal isLiteral, List.append_nil]

/-- A line that opens a class begins with a digit. -/
theorem head?_of_classLine (opens : classLine.accepts line = true) :
    ∃ head ∈ line.head?, isDecimalDigit head = true := by
  obtain ⟨name, found⟩ := exists_of_accepts opens
  rw [classLine] at found
  rcases exists_mem_of_andThen found with ⟨number, rest, inDigits, -⟩
  rcases eq_of_mem_span1 inDigits with ⟨number_eq, -, nonempty⟩
  rcases line with _ | ⟨head, line⟩
  · exact absurd number_eq nonempty
  · refine ⟨head, rfl, ?_⟩
    by_contra noDigit
    exact nonempty (by rw [number_eq, List.takeWhile_cons_of_neg noDigit])

/-- A line that opens a method goes on with digits and a colon after its leading blanks. -/
theorem dropWhile_of_methodLine (opens : methodLine.accepts line = true) :
    ∃ first number rest, line.dropWhile isBlank = first :: number ++ ':' :: rest ∧
      ∀ digit ∈ first :: number, isDecimalDigit digit = true := by
  obtain ⟨declaration, found⟩ := exists_of_accepts opens
  rw [methodLine] at found
  rcases exists_mem_of_andThen found with ⟨blanks, afterBlanks, inBlanks, _, later⟩
  rcases List.mem_flatMap.1 later with ⟨⟨number, afterNumber⟩, inDigits, later⟩
  rcases List.mem_flatMap.1 later with ⟨⟨_, rest⟩, inLiteral, _⟩
  obtain ⟨-, rfl, -⟩ := eq_of_mem_span1 inBlanks
  obtain ⟨number_eq, -, nonempty⟩ := eq_of_mem_span1 inDigits
  obtain ⟨first, others, rfl⟩ := List.exists_cons_of_ne_nil nonempty
  refine ⟨first, others, rest, ?_, fun digit member => ?_⟩
  · rw [mem_span1 inDigits, mem_literal inLiteral]
    rfl
  · rw [number_eq] at member
    exact List.mem_takeWhile_imp member

/-- A line begins with a blank and goes on with two characters after its leading blanks. -/
structure BeginsWith (line : Text) (first second : Char) : Prop where
  blank : ∃ head ∈ line.head?, isBlank head = true
  goesOn : ∃ rest, line.dropWhile isBlank = first :: second :: rest

theorem BeginsWith.head? {first second : Char} (begins : BeginsWith line first second) :
    (line.dropWhile isBlank).head? = some first := by
  obtain ⟨rest, goesOn⟩ := begins.goesOn
  rw [goesOn, List.head?_cons]

theorem beginsWith_of_first? {α : Type} {first second : Char} {mark : Text} {next : Form α}
    {value : α}
    (found : (blanks.andThen fun _ => (literal (first :: second :: mark)).andThen fun _ =>
      next).first? line = some value) : BeginsWith line first second := by
  obtain ⟨⟨rest, goesOn⟩, blank⟩ := dropWhile_of_blanks_literal found
  exact ⟨blank, mark ++ rest, goesOn⟩

theorem beginsWith_of_codeLine (isCode : codeLine.accepts line = true) :
    BeginsWith line '0' 'x' := by
  obtain ⟨code, found⟩ := exists_of_accepts isCode
  exact beginsWith_of_first? found

theorem beginsWith_of_dexLine (isDex : dexLine.accepts line = true) : BeginsWith line '0' 'x' := by
  obtain ⟨code, found⟩ := exists_of_accepts isDex
  exact beginsWith_of_first? found

theorem beginsWith_of_stackMapLine (isMap : stackMapLine.accepts line = true) :
    BeginsWith line 'S' 't' := by
  obtain ⟨address, found⟩ := exists_of_accepts isMap
  exact beginsWith_of_first? found

theorem beginsWith_of_inlineInfoLine (isInfo : inlineInfoLine.accepts line = true) :
    BeginsWith line 'I' 'n' := by
  obtain ⟨inlined, found⟩ := exists_of_accepts isInfo
  exact beginsWith_of_first? found

/-- A line that goes on, after blanks, with another character than a digit or as a hexadecimal
number does opens neither a method nor a class. -/
theorem BeginsWith.isBoundary {first second : Char} (begins : BeginsWith line first second)
    (noNumber : isDecimalDigit first = false ∨ isDecimalDigit second = false ∧ second ≠ ':') :
    isBoundary line = false := by
  rw [Oatdump.isBoundary, Bool.or_eq_false_iff]
  constructor
  · by_contra opens
    obtain ⟨digit, number, left, split, digits⟩ := dropWhile_of_methodLine (by simpa using opens)
    obtain ⟨rest, goesOn⟩ := begins.goesOn
    rw [goesOn] at split
    rcases noNumber with noDigit | ⟨noDigit, noColon⟩
    · obtain rfl := (List.cons.inj split).1
      simp [digits first] at noDigit
    · rcases number with _ | ⟨next, number⟩
      · exact noColon (List.cons.inj (List.cons.inj split).2).1
      · obtain rfl := (List.cons.inj (List.cons.inj split).2).1
        simp [digits second] at noDigit
  · by_contra opens
    obtain ⟨head, isHead, isDigit⟩ := head?_of_classLine (by simpa using opens)
    obtain ⟨other, isOther, isBlank⟩ := begins.blank
    obtain rfl := Option.mem_unique isHead isOther
    simp [isDecimalDigit_of_isBlank isBlank] at isDigit

/-- The lines below a call that belong to it are no lines of code. -/
theorem BeginsWith.codeLine {first second : Char} (begins : BeginsWith line first second)
    (noZero : first ≠ '0') : codeLine.first? line = none := by
  by_contra isCode
  have same := (beginsWith_of_codeLine (Option.isSome_iff_ne_none.2 isCode)).head?
  rw [begins.head?] at same
  exact noZero (Option.some.inj same)

/-- The mark of the native code is no line of the DEX code. -/
theorem dexLine_of_marksCode (isMark : marksCode line = true) : dexLine.accepts line = false := by
  by_contra isDex
  have begins := beginsWith_of_dexLine (by simpa using isDex)
  have noMark : marksCode line = false := startsWith_trim_eq_false begins.head? rfl (by decide)
  simp [noMark] at isMark

/-- Whether the reader, in the middle of the DEX code of a method or of a call, takes a line for a
further one of that. -/
def Position.takes : Position → Text → Bool
  | inEcho .., line => dexLine.accepts line
  | afterCall .., line => stackMapLine.accepts line
  | afterStackMap .., line => inlineInfoLine.accepts line
  | _, _ => false

/-- A line that the reader takes in the middle of something does not end the code of a method. -/
theorem isBoundary_of_takes {position : Position} (takes : position.takes line = true) :
    isBoundary line = false := by
  cases position with
  | inEcho head references => exact (beginsWith_of_dexLine takes).isBoundary (.inr (by decide))
  | afterCall method call => exact (beginsWith_of_stackMapLine takes).isBoundary (.inl (by decide))
  | afterStackMap method call callAddress =>
      exact (beginsWith_of_inlineInfoLine takes).isBoundary (.inl (by decide))
  | _ => cases takes

theorem first?_of_isBoundary (noBoundary : isBoundary line = false) :
    methodLine.first? line = none ∧ classLine.first? line = none := by
  simpa [isBoundary, accepts] using noBoundary

theorem machine_step (scope : Scope) (line : Text) : machine.step scope line = step scope line :=
  rfl

/-- Any other line within a class is read by the position alone. -/
theorem step_of_isBoundary {architecture : Architecture} {parent : OpenClass} {position : Position}
    (noBoundary : isBoundary line = false) :
    step (.inClass architecture parent position) line =
      (stepInMethod architecture line position).map
        fun next => ([], .inClass architecture parent next) := by
  obtain ⟨noMethod, noClass⟩ := first?_of_isBoundary noBoundary
  rw [step, noClass, noMethod]
  cases stepInMethod architecture line position <;> rfl

/-- Such a line needs no look at whether it opens a method or a class. -/
theorem step_of_takes {architecture : Architecture} {parent : OpenClass} {position : Position}
    (takes : position.takes line = true) :
    step (.inClass architecture parent position) line =
      (stepInMethod architecture line position).map
        fun next => ([], .inClass architecture parent next) :=
  step_of_isBoundary (isBoundary_of_takes takes)

end CompiledViews.Dump.Oatdump
