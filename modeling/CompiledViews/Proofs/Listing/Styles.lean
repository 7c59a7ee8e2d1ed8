import CompiledViews.Proofs.Listing.Rows

/-!
# Listings in different styles

A builder looks at its style only for the letters of a line: how many lines it writes, and what it
keeps in its maps, comes from the calls alone. So listings of the same classes in two styles are
`Aligned`, and a viewer that changes the style may keep every line number that it holds. Showing the
line numbers of the source widens the lines of instructions by a column and no other ones. All this
is about styles that fit the classes: in another one there is no listing at all.
-/

namespace CompiledViews.Listing

open Text

/-- Listings with equal maps and with equally many lines. -/
structure Aligned (left right : Listing) : Prop where
  jumps : left.jumps = right.jumps
  sourceToCode : left.sourceToCode = right.sourceToCode
  codeToSource : left.codeToSource = right.codeToSource
  lines : (splitAll '\n' left.text).length = (splitAll '\n' right.text).length

/-- What tells the line of the source that an instruction comes from. -/
def sourceMark : Option Nat → Text
  | some number => Text.ofNat number ++ ":"
  | none => " "

/-- Builders that have come equally far: they differ in their styles and in what their lines say. -/
structure Builder.Alike (left right : Builder) : Prop where
  line : left.line = right.line
  jumps : left.jumps = right.jumps
  sourceToCode : left.sourceToCode = right.sourceToCode
  codeToSource : left.codeToSource = right.codeToSource
  addresses : left.addresses = right.addresses
  pendingJumps : left.pendingJumps = right.pendingJumps
  lastLineNumber : left.lastLineNumber = right.lastLineNumber

/-- A call writes as many lines as it has rows, whatever the style. -/
theorem Call.length_lines (style : Style) (call : Call) :
    (call.lines style).length = (Row.ofCall call).length := by
  rw [Row.lines_eq_map, List.length_map]

namespace Builder.Alike

variable {left right : Builder}

theorem of_new (first second : Style) : Alike (new first) (new second) := by
  constructor <;> rfl

theorem line_perform (alike : Alike left right) (call : Call) :
    (left.perform call).line = (right.perform call).line := by
  have same := alike.line
  simp only [Builder.line] at same ⊢
  simp only [written_perform, List.length_append, List.length_reverse, Call.length_lines, same]

theorem perform (alike : Alike left right) (call : Call) :
    Alike (left.perform call) (right.perform call) := by
  have line := alike.line_perform call
  rcases alike with
    ⟨same, jumps, sourceToCode, codeToSource, addresses, pendingJumps, lastLineNumber⟩
  cases call with
  | addInstruction instruction callee =>
      constructor
      case line => exact line
      all_goals
        simp only [Builder.perform, addInstruction, same, jumps, sourceToCode, codeToSource,
          addresses, pendingJumps, lastLineNumber]
  | endMethod =>
      constructor
      case line => exact line
      all_goals
        simp only [Builder.perform, endMethod, resolvedJumps, jumps, sourceToCode, codeToSource,
          addresses, pendingJumps]
  | _ =>
      -- Headers and summaries are written, and that is all.
      constructor
      case line => exact line
      all_goals
        simpa only [Builder.perform, startClass, startMethod, foldl_write, write]

theorem performAll (alike : Alike left right) (calls : List Call) :
    Alike (left.performAll calls) (right.performAll calls) := by
  induction calls generalizing left right with
  | nil => exact alike
  | cons call calls ih => exact ih (alike.perform call)

end Builder.Alike

theorem aligned_ofClasses {classes : List Class} (inOneLine : ∀ cls ∈ classes, cls.InOneLine)
    (first second : Style) : Aligned (ofClasses classes first) (ofClasses classes second) := by
  have alike := (Builder.Alike.of_new first second).performAll (Call.ofClasses classes)
  constructor
  case jumps => rw [ofClasses_eq_build, ofClasses_eq_build]; exact alike.jumps
  case sourceToCode => rw [ofClasses_eq_build, ofClasses_eq_build]; exact alike.sourceToCode
  case codeToSource => rw [ofClasses_eq_build, ofClasses_eq_build]; exact alike.codeToSource
  case lines => simp [splitAll_text_ofClasses inOneLine]

/-- Without line numbers of the source an instruction begins right after the indentation; with them
it begins after their column. -/
theorem exists_instructionLine_eq (indent width : Nat) (shown : Instruction)
    (callee : Option Text) :
    ∃ rest, instructionLine ⟨indent, width, false⟩ shown callee = spaces (indent * 2) ++ rest ∧
      instructionLine ⟨indent, width, true⟩ shown callee =
        spaces (indent * 2) ++ padRight (width + 2) (sourceMark shown.lineNumber) ++ rest := by
  refine ⟨shown.shown ++ callArrow callee, ?_, ?_⟩
  · simp [instructionLine, lineNumberColumn]
  · cases mark : shown.lineNumber <;>
      simp [instructionLine, lineNumberColumn, sourceMark, mark]

/-- Only the line of an instruction has a place for line numbers of the source. -/
theorem Row.text_eq_of_forall_ne {row : Row}
    (noInstruction : ∀ shown callee, row ≠ .instruction shown callee) (indent width : Nat)
    (numbered plain : Bool) :
    row.text ⟨indent, width, numbered⟩ = row.text ⟨indent, width, plain⟩ := by
  cases row with
  | instruction shown callee => exact absurd rfl (noInstruction shown callee)
  | _ => rfl

section fits

variable {classes : List Class}

theorem ofClasses?_of_fits {style : Style} (fits : Fits classes style) :
    ofClasses? classes style = some (ofClasses classes style) := if_pos fits

/-- Without line numbers of the source a listing is narrower. -/
theorem Fits.plain {indent width : Nat} (fits : Fits classes ⟨indent, width, true⟩) :
    Fits classes ⟨indent, width, false⟩ := by
  intro cls isClass method isMethod
  refine ⟨(fits cls isClass method isMethod).1, ?_⟩
  intro isShown
  cases isShown

/-- Every style with narrow columns fits, whatever the classes are. -/
theorem fits_of_le {style : Style} (indented : style.indent * 2 ≤ Style.mostBytes)
    (numbered : style.lineNumberWidth + 2 ≤ Style.widestColumn) : Fits classes style :=
  fun _ _ _ _ => ⟨indented, fun _ _ => numbered⟩

end fits

/-- A listing with a column for the line numbers of the source, in front of its instructions, next
to one without. -/
structure Numbers (classes : List Class) (indent width : Nat) (numbered plain : Listing) :
    Prop where
  same : ∀ line : Nat, ¬ShowsInstruction classes line →
    (splitAll '\n' numbered.text)[line]? = (splitAll '\n' plain.text)[line]?
  column : ∀ (line : Nat) (shown : Instruction) (callee : Option Text),
    (Row.ofClasses classes)[line]? = some (.instruction shown callee) →
    ∃ rest,
      (splitAll '\n' plain.text)[line]? = some (spaces (indent * 2) ++ rest) ∧
      (splitAll '\n' numbered.text)[line]? =
        some (spaces (indent * 2) ++ padRight (width + 2) (sourceMark shown.lineNumber) ++ rest)

theorem numbers_ofClasses {classes : List Class} (inOneLine : ∀ cls ∈ classes, cls.InOneLine)
    (indent width : Nat) :
    Numbers classes indent width (ofClasses classes ⟨indent, width, true⟩)
      (ofClasses classes ⟨indent, width, false⟩) := by
  constructor
  case same =>
    intro line noInstruction
    cases isRow : (Row.ofClasses classes)[line]? with
    | some row =>
        rw [getElem?_splitAll_text inOneLine _ isRow, getElem?_splitAll_text inOneLine _ isRow]
        refine congrArg some (Row.text_eq_of_forall_ne ?_ indent width true false)
        rintro shown callee rfl
        exact noInstruction ⟨shown, callee, isRow⟩
    | none =>
        -- Behind the rows there is one empty text, and then nothing.
        have beyond := List.getElem?_eq_none_iff.1 isRow
        rw [splitAll_text_ofClasses inOneLine, splitAll_text_ofClasses inOneLine,
          List.getElem?_append_right (by simpa using beyond),
          List.getElem?_append_right (by simpa using beyond), List.length_map, List.length_map]
  case column =>
    intro line shown callee isRow
    rcases exists_instructionLine_eq indent width shown callee with ⟨rest, plain, numbered⟩
    refine ⟨rest, ?_, ?_⟩
    · rw [getElem?_splitAll_text inOneLine _ isRow, Row.text, plain]
    · rw [getElem?_splitAll_text inOneLine _ isRow, Row.text, numbered]

/-- There are listings of classes in the styles that fit them, and these have their lines in the
same places. Those that differ only in whether they show the line numbers of the source have the
same lines, up to a column of their own after the indentation of each instruction. -/
theorem styles_ofClasses {classes : List Class} (inOneLine : ∀ cls ∈ classes, cls.InOneLine) :
    (∀ first second : Style, Fits classes first → Fits classes second → ∃ left right,
      ofClasses? classes first = some left ∧ ofClasses? classes second = some right ∧
        Aligned left right) ∧
      ∀ indent width, Fits classes ⟨indent, width, true⟩ → ∃ numbered plain,
        ofClasses? classes ⟨indent, width, true⟩ = some numbered ∧
          ofClasses? classes ⟨indent, width, false⟩ = some plain ∧
          Numbers classes indent width numbered plain := by
  constructor
  · intro first second fits fits'
    exact ⟨_, _, ofClasses?_of_fits fits, ofClasses?_of_fits fits',
      aligned_ofClasses inOneLine first second⟩
  · intro indent width fits
    exact ⟨_, _, ofClasses?_of_fits fits, ofClasses?_of_fits fits.plain,
      numbers_ofClasses inOneLine indent width⟩

theorem styles_ofClasses_loop :
    (∃ left right, ofClasses? loopClasses .default = some left ∧
        ofClasses? loopClasses ⟨1, 3, false⟩ = some right ∧ Aligned left right) ∧
      ∃ numbered plain, ofClasses? loopClasses ⟨1, 3, true⟩ = some numbered ∧
        ofClasses? loopClasses ⟨1, 3, false⟩ = some plain ∧
        (splitAll '\n' numbered.text)[2]? = (splitAll '\n' plain.text)[2]? ∧
        (splitAll '\n' plain.text)[4]? = some "  0: goto 0".toList ∧
        (splitAll '\n' numbered.text)[4]? = some "  3:   0: goto 0".toList := by
  have shown : (splitAll '\n' (ofClasses loopClasses ⟨1, 3, false⟩).text)[4]? =
      some "  0: goto 0".toList := by decide
  have fits (style : Style) (narrow : style.indent * 2 ≤ Style.mostBytes ∧
      style.lineNumberWidth + 2 ≤ Style.widestColumn) : Fits loopClasses style :=
    fits_of_le narrow.1 narrow.2
  have noInstruction : ¬ShowsInstruction loopClasses 2 := by
    rintro ⟨_, _, row⟩
    cases row
  rcases styles_ofClasses (Dump.Javap.read_inOneLine read_loopDump) with ⟨aligned, numbers⟩
  refine ⟨aligned _ _ (fits _ (by decide)) (fits _ (by decide)), ?_⟩
  rcases numbers 1 3 (fits _ (by decide)) with
    ⟨numbered, plain, isNumbered, isPlain, same, column⟩
  rcases column 4 _ _ rfl with ⟨rest, plainLine, numberedLine⟩
  obtain rfl := Option.some.inj (isPlain.symm.trans (ofClasses?_of_fits (fits _ (by decide))))
  have isRest : spaces 2 ++ rest = "  0: goto 0".toList :=
    Option.some.inj (plainLine.symm.trans shown)
  obtain rfl : rest = "0: goto 0".toList := by simpa [spaces] using isRest
  exact ⟨numbered, _, isNumbered, isPlain, same 2 noInstruction, shown, numberedLine⟩

/-- A column of 65536 characters is too wide for the line numbers of a loop. -/
theorem not_forall_aligned :
    ¬∀ classes : List Class, (∀ cls ∈ classes, cls.InOneLine) → ∀ first second : Style,
      ∃ left right, ofClasses? classes first = some left ∧
        ofClasses? classes second = some right ∧ Aligned left right := by
  intro everywhere
  have tooWide : ofClasses? loopClasses ⟨1, 65534, true⟩ = none := by decide
  rcases everywhere loopClasses (Dump.Javap.read_inOneLine read_loopDump) ⟨1, 65534, true⟩
    ⟨1, 65534, false⟩ with ⟨_, _, isListing, _⟩
  rw [tooWide] at isListing
  cases isListing

end CompiledViews.Listing
