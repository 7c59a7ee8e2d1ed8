import CompiledViews.Proofs.Text.Parts
import CompiledViews.Text.Lines

/-!
# Texts in one line

A text without a line feed stays in one line. The lines of a text are of this kind, and so are their
parts and what is put together from them; lines of this kind that are written one under the other
can be told apart again.
-/

namespace CompiledViews.Text

/-- A text without a line feed. -/
def SingleLine (text : Text) : Prop := '\n' ∉ text

instance (text : Text) : Decidable text.SingleLine := inferInstanceAs (Decidable ('\n' ∉ text))

namespace SingleLine

theorem of_subset {whole part : Text} (single : whole.SingleLine)
    (subset : ∀ character ∈ part, character ∈ whole) : part.SingleLine :=
  fun member => single (subset _ member)

/-- The parts of a line are in one line. -/
theorem of_part {whole part : Text} (single : whole.SingleLine) (isPart : part <:+: whole) :
    part.SingleLine :=
  single.of_subset fun _ member => isPart.subset member

@[simp]
theorem nil : SingleLine [] := by simp [SingleLine]

@[simp]
theorem cons_iff {character : Char} {text : Text} :
    SingleLine (character :: text) ↔ character ≠ '\n' ∧ text.SingleLine := by
  simp [SingleLine, eq_comm]

@[simp]
theorem append_iff {left right : Text} :
    (left ++ right).SingleLine ↔ left.SingleLine ∧ right.SingleLine := by
  simp [SingleLine]

@[simp]
theorem spaces (count : Nat) : (Text.spaces count).SingleLine := by
  simp [SingleLine, Text.spaces]

@[simp]
theorem padRight_iff {width : Nat} {text : Text} :
    (padRight width text).SingleLine ↔ text.SingleLine := by
  simp [padRight]

@[simp]
theorem ofNat (number : Nat) : (Text.ofNat number).SingleLine := fun member =>
  absurd (Nat.isDigit_of_mem_toDigits (by decide) (by decide) member) (by decide)

theorem replaceChar {old new : Char} {text : Text} (single : text.SingleLine)
    (newInLine : new ≠ '\n') : (Text.replaceChar old new text).SingleLine :=
  fun member => (of_mem_replaceChar member).elim (fun isNew => newInLine isNew.symm) single

theorem removeAllFrom (pattern : Text) (skip : Nat) {text : Text} (single : text.SingleLine) :
    (Text.removeAllFrom pattern skip text).SingleLine := by
  apply single.of_subset
  clear single
  fun_induction Text.removeAllFrom pattern skip text with grind

theorem join {separator : Text} {pieces : List Text} (separatorSingle : separator.SingleLine)
    (single : ∀ piece ∈ pieces, piece.SingleLine) : (Text.join separator pieces).SingleLine := by
  fun_induction Text.join separator pieces with
  | case1 => exact nil
  | case2 piece => exact single piece (by simp)
  | case3 piece next pieces ih =>
      have others := ih fun other member => single other (List.mem_cons_of_mem _ member)
      simpa [separatorSingle, others] using single piece (by simp)

/-- The lines of a text are in one line each. -/
theorem of_mem_lines {text line : Text} (member : line ∈ Text.lines text) : line.SingleLine := by
  fun_induction Text.lines text generalizing line with
  | case1 => simp at member
  | case2 rest ih =>
      rcases List.mem_cons.1 member with rfl | later
      · exact nil
      · exact ih later
  | case3 rest ih =>
      rcases List.mem_cons.1 member with rfl | later
      · exact nil
      · exact ih later
  | case4 character rest isNoFeed isNoReturn last ih =>
      rcases List.mem_singleton.1 member with rfl
      simpa [SingleLine] using fun same : '\n' = character => isNoFeed same.symm
  | case5 character rest isNoFeed isNoReturn first others linesEq ih =>
      rcases List.mem_cons.1 member with rfl | later
      · have firstSingle : first.SingleLine := ih (linesEq ▸ List.mem_cons_self)
        intro member
        rcases List.mem_cons.1 member with same | inFirst
        · exact isNoFeed same.symm
        · exact firstSingle inFirst
      · exact ih (linesEq ▸ List.mem_cons_of_mem _ later)

/-- Cutting at line feeds gives back the lines that were closed by them, and the empty text that
follows the last one. -/
theorem splitAll_unlines {lines : List Text} (single : ∀ line ∈ lines, line.SingleLine) :
    splitAll '\n' (unlines lines) = lines ++ [[]] := by
  induction lines with
  | nil => rfl
  | cons line lines ih =>
      have first : line.SingleLine := single line (by simp)
      have others := ih fun other member => single other (List.mem_cons_of_mem _ member)
      have closed : unlines (line :: lines) = line ++ '\n' :: unlines lines := by simp [unlines]
      rw [closed, splitAll_append first, others]
      rfl

end SingleLine

end CompiledViews.Text
