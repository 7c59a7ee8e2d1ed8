import CompiledViews.Proofs.Text.SingleLine

/-!
# Lines of texts

A text that ends in a line feed is a list of whole lines, so what comes after it begins a new one:
the lines of the two together are those of the first and then those of the second. Lines that are
written one under the other are found again, as long as none of them ends in a carriage return.

What ends a line is no part of it: a text without carriage returns has the same lines with one
before each line feed, and the same lines with a line feed more behind its last line.
-/

namespace CompiledViews.Text

/-- A text that is empty or ends in a line feed. -/
def IsClosed (text : Text) : Prop := text = [] ∨ text.getLast? = some '\n'

instance (text : Text) : Decidable text.IsClosed :=
  inferInstanceAs (Decidable (text = [] ∨ text.getLast? = some '\n'))

theorem IsClosed.of_cons {first : Char} {rest : Text} (closed : IsClosed (first :: rest)) :
    rest.IsClosed := by
  rcases closed with none | atEnd
  · cases none
  · cases rest with
    | nil => exact .inl rfl
    | cons next rest => exact .inr (by simpa using atEnd)

/-- A character that neither is a line feed nor belongs to one stands in the first line. -/
theorem lines_cons {first : Char} {rest : Text} (noFeed : first ≠ '\n')
    (noReturn : first = '\r' → rest.head? ≠ some '\n') :
    lines (first :: rest) =
      match lines rest with
      | [] => [[first]]
      | line :: others => (first :: line) :: others := by
  have noPair : ∀ others, first = '\r' → rest = '\n' :: others → False :=
    fun others isReturn isFeed => noReturn isReturn (by simp [isFeed])
  exact lines.eq_4 first rest noFeed noPair

theorem lines_eq_nil_iff {text : Text} : lines text = [] ↔ text = [] := by
  constructor
  · intro none
    fun_cases lines text <;> simp_all [lines]
  · rintro rfl
    rfl

/-- What follows a text that is closed begins a new line. -/
theorem lines_append {front : Text} (closed : front.IsClosed) (back : Text) :
    lines (front ++ back) = lines front ++ lines back := by
  fun_induction lines front with
  | case1 => rfl
  | case2 rest ih => simp only [List.cons_append, lines, ih closed.of_cons]
  | case3 rest ih => simp only [List.cons_append, lines, ih closed.of_cons.of_cons]
  | case4 first rest noFeed _ noLines _ =>
      obtain rfl := lines_eq_nil_iff.1 noLines
      rcases closed with none | atEnd
      · cases none
      · exact absurd (Option.some.inj atEnd) noFeed
  | case5 first rest noFeed noReturn line others isLine ih =>
      have nonempty : rest ≠ [] := by
        rintro rfl
        cases isLine
      rw [List.cons_append, lines_cons noFeed, ih closed.of_cons, isLine]
      · rfl
      · rintro rfl isFeed
        rw [List.head?_append_of_ne_nil _ nonempty] at isFeed
        obtain ⟨left, rfl⟩ := List.head?_eq_some_iff.1 isFeed
        exact noReturn left rfl rfl

/-- A text that can be written as a line: it holds no line feed, and no carriage return at its end,
which would go with the line feed behind it. -/
structure IsLine (text : Text) : Prop where
  single : text.SingleLine
  noReturn : text.getLast? ≠ some '\r'

instance (text : Text) : Decidable text.IsLine :=
  decidable_of_iff (text.SingleLine ∧ text.getLast? ≠ some '\r')
    ⟨fun ⟨single, noReturn⟩ => ⟨single, noReturn⟩, fun isLine => ⟨isLine.1, isLine.2⟩⟩

theorem IsLine.lines_append_feed {line : Text} (isLine : line.IsLine) (rest : Text) :
    lines (line ++ '\n' :: rest) = line :: lines rest := by
  induction line with
  | nil => rfl
  | cons first line ih =>
      obtain ⟨noFeed, single⟩ := SingleLine.cons_iff.1 isLine.single
      have others : IsLine line := by
        refine ⟨single, fun atEnd => isLine.noReturn ?_⟩
        rw [List.getLast?_cons, atEnd]
        rfl
      rw [List.cons_append, lines_cons noFeed, ih others]
      rintro rfl isFeed
      cases line with
      | nil => exact isLine.noReturn rfl
      | cons next line =>
          obtain rfl : next = '\n' := by simpa using isFeed
          exact single List.mem_cons_self

/-- A carriage return in front of a line feed goes with it. -/
theorem lines_append_return {line : Text} (single : line.SingleLine) (rest : Text) :
    lines (line ++ '\r' :: '\n' :: rest) = line :: lines rest := by
  induction line with
  | nil => rfl
  | cons first line ih =>
      obtain ⟨noFeed, others⟩ := SingleLine.cons_iff.1 single
      rw [List.cons_append, lines_cons noFeed, ih others]
      intro _ isFeed
      cases line with
      | nil => cases isFeed
      | cons next line =>
          obtain rfl : next = '\n' := by simpa using isFeed
          exact others List.mem_cons_self

/-- A text without a line feed is found again as a line, but for a carriage return at its end, which
is a blank. -/
theorem exists_lines_append_feed {line : Text} (single : line.SingleLine) (rest : Text) :
    ∃ seen, lines (line ++ '\n' :: rest) = seen :: lines rest ∧ trim seen = trim line := by
  by_cases atEnd : line.getLast? = some '\r'
  · obtain ⟨front, rfl⟩ := List.getLast?_eq_some_iff.1 atEnd
    refine ⟨front, ?_, (trim_concat (by decide) front).symm⟩
    rw [List.append_assoc]
    exact lines_append_return (SingleLine.append_iff.1 single).1 rest
  · exact ⟨line, IsLine.lines_append_feed ⟨single, atEnd⟩ rest, rfl⟩

/-- Lines that are written one under the other are the lines of that text. -/
theorem lines_unlines {all : List Text} (areLines : ∀ line ∈ all, line.IsLine) :
    lines (unlines all) = all := by
  induction all with
  | nil => rfl
  | cons line all ih =>
      obtain ⟨isLine, others⟩ := List.forall_mem_cons.1 areLines
      have closed : unlines (line :: all) = line ++ '\n' :: unlines all := by simp [unlines]
      rw [closed, isLine.lines_append_feed, ih others]

/-- The text with a carriage return in front of each line feed. -/
def withReturns (text : Text) : Text :=
  text.flatMap fun character => if character = '\n' then ['\r', '\n'] else [character]

theorem lines_withReturns {text : Text} (noReturn : '\r' ∉ text) :
    lines (withReturns text) = lines text := by
  induction text with
  | nil => rfl
  | cons first rest ih =>
      obtain ⟨isOther, absent⟩ := List.ne_and_not_mem_of_not_mem_cons noReturn
      have others := ih absent
      by_cases isFeed : first = '\n'
      · have text : withReturns (first :: rest) = '\r' :: '\n' :: withReturns rest := by
          simp [withReturns, isFeed]
        rw [text, isFeed, lines, lines, others]
      · have text : withReturns (first :: rest) = first :: withReturns rest := by
          simp [withReturns, isFeed]
        have noPair {next : Text} : first = '\r' → next.head? ≠ some '\n' :=
          fun isReturn => absurd isReturn.symm isOther
        rw [text, lines_cons isFeed noPair, lines_cons isFeed noPair, others]

/-- A line feed behind the last line ends that line and begins no other one. -/
theorem lines_concat_feed {text : Text} (noReturn : '\r' ∉ text) (unended : ¬text.IsClosed) :
    lines (text ++ ['\n']) = lines text := by
  induction text with
  | nil => exact absurd (.inl rfl) unended
  | cons first rest ih =>
      obtain ⟨isOther, absent⟩ := List.ne_and_not_mem_of_not_mem_cons noReturn
      have noPair {next : Text} : first = '\r' → next.head? ≠ some '\n' :=
        fun isReturn => absurd isReturn.symm isOther
      rw [List.cons_append]
      rcases rest with _ | ⟨next, rest⟩
      · have isFeed : first ≠ '\n' := fun isFeed => unended (.inr (by rw [isFeed]; rfl))
        rw [List.nil_append, lines_cons isFeed noPair, lines_cons isFeed noPair]
        rfl
      · have goesOn : ¬IsClosed (next :: rest) := by
          rintro (none | atEnd)
          · cases none
          · exact unended (.inr (by rw [List.getLast?_cons_cons, atEnd]))
        have others := ih absent goesOn
        by_cases isFeed : first = '\n'
        · rw [isFeed, lines, lines, others]
        · rw [lines_cons isFeed noPair, lines_cons isFeed noPair, others]

/-- The characters of a line are characters of the text. -/
theorem subset_of_mem_lines {text line : Text} (member : line ∈ lines text) : line ⊆ text := by
  fun_induction lines text generalizing line with
  | case1 => cases member
  | case2 rest ih | case3 rest ih =>
      rcases List.mem_cons.1 member with rfl | later
      · exact List.nil_subset _
      · exact List.Subset.trans (ih later) (by simp [List.subset_def]; tauto)
  | case4 first rest _ _ _ _ =>
      obtain rfl := List.mem_singleton.1 member
      simp
  | case5 first rest _ _ head others isLine ih =>
      rcases List.mem_cons.1 member with rfl | later
      · exact List.cons_subset_cons _ (ih (isLine ▸ List.mem_cons_self))
      · exact List.subset_cons_of_subset _ (ih (isLine ▸ List.mem_cons_of_mem _ later))

end CompiledViews.Text
