import CompiledViews.Proofs.Text.Form
import Mathlib.Data.List.TakeWhile

/-!
# How a line goes on after its leading blanks

Marks are looked for in a line without the blanks around it, and most forms of lines begin with
blanks and a literal text. So two of them exclude each other if what follows the leading blanks has
to begin with different characters.
-/

namespace CompiledViews.Text

theorem dropRightWhile_cons {unwanted : Char → Bool} {first : Char}
    (isWanted : unwanted first = false) (rest : Text) :
    dropRightWhile unwanted (first :: rest) = first :: dropRightWhile unwanted rest := by
  rw [dropRightWhile]
  split
  case h_1 none => simp [isWanted, none]
  case h_2 _ => rfl

/-- A text without blanks around it begins as the text does after its leading blanks. -/
theorem head?_trim (text : Text) : (trim text).head? = (text.dropWhile isBlank).head? := by
  rw [trim, trimLeft, trimRight]
  rcases isLeft : text.dropWhile isBlank with _ | ⟨first, rest⟩
  · rfl
  · have isWanted : isBlank first = false := by
      have nonempty : text.dropWhile isBlank ≠ [] := by simp [isLeft]
      simpa [isLeft] using List.head_dropWhile_not isBlank nonempty
    rw [dropRightWhile_cons isWanted]
    rfl

/-- A text without blanks around it does not begin with one. -/
theorem isBlank_of_head?_trim {text : Text} (trimmed : trim text = text) :
    ∀ first ∈ text.head?, isBlank first = false := by
  intro first isFirst
  have wanted := List.head?_dropWhile_not isBlank text
  rwa [← head?_trim, trimmed, Option.mem_def.1 isFirst] at wanted

theorem head?_of_startsWith {text mark : Text} {first : Char} (isFirst : mark.head? = some first)
    (starts : startsWith text mark = true) : text.head? = some first := by
  rcases List.isPrefixOf_iff_prefix.1 starts with ⟨rest, rfl⟩
  cases mark <;> simp_all

/-- A line that begins with a mark once trimmed goes on with the first character of the mark after
its leading blanks. -/
theorem head?_dropWhile_of_startsWith {line mark : Text} {first : Char}
    (isFirst : mark.head? = some first) (starts : startsWith (trim line) mark = true) :
    (line.dropWhile isBlank).head? = some first :=
  head?_trim line ▸ head?_of_startsWith isFirst starts

/-- No mark that begins otherwise starts a line that goes on in a certain way after its leading
blanks. -/
theorem startsWith_trim_eq_false {line mark : Text} {first other : Char}
    (isFirst : (line.dropWhile isBlank).head? = some first) (isOther : mark.head? = some other)
    (differ : first ≠ other) : startsWith (trim line) mark = false := by
  by_contra starts
  have same := head?_dropWhile_of_startsWith isOther (by simpa using starts)
  exact differ (Option.some.inj (isFirst.symm.trans same))

/-- No blank is a digit. -/
theorem isDecimalDigit_of_isBlank {character : Char} (blank : isBlank character = true) :
    isDecimalDigit character = false := by
  simp only [isBlank, Bool.or_eq_true, Bool.and_eq_true, decide_eq_true_eq, beq_iff_eq] at blank
  have low : ∀ code ≤ 0xD, inRanges decimalDigitRanges code = false := by decide
  have high : ∀ offset ≤ 0xA, inRanges decimalDigitRanges (0x2000 + offset) = false := by decide
  have single : ∀ code ∈ [0x20, 0x85, 0xA0, 0x1680, 0x2028, 0x2029, 0x202F, 0x205F, 0x3000],
      inRanges decimalDigitRanges code = false := by decide
  unfold isDecimalDigit
  generalize character.toNat = code at blank
  have kinds : code ≤ 0xD ∨ (0x2000 ≤ code ∧ code ≤ 0x200A) ∨
      code ∈ [0x20, 0x85, 0xA0, 0x1680, 0x2028, 0x2029, 0x202F, 0x205F, 0x3000] := by
    simp only [List.mem_cons, List.not_mem_nil, or_false]
    omega
  rcases kinds with atMost | ⟨atLeast, atMost⟩ | isSingle
  · exact low code atMost
  · obtain ⟨offset, rfl⟩ := Nat.exists_eq_add_of_le atLeast
    exact high offset (by omega)
  · exact single code isSingle

theorem isBlank_of_isDecimalDigit (character : Char) (isDigit : isDecimalDigit character = true) :
    isBlank character = false := by
  by_contra blank
  rw [isDecimalDigit_of_isBlank (by simpa using blank)] at isDigit
  cases isDigit

/-- No blank is a hexadecimal digit. -/
theorem isHexDigit_of_isBlank {character : Char} (blank : isBlank character = true) :
    isHexDigit character = false := by
  by_contra isDigit
  simp only [isBlank, Bool.or_eq_true, Bool.and_eq_true, decide_eq_true_eq, beq_iff_eq] at blank
  simp only [isHexDigit, Char.isDigit, Char.le_def, Bool.not_eq_false, Bool.or_eq_true,
    Bool.and_eq_true, decide_eq_true_eq, UInt32.le_iff_toNat_le, ge_iff_le] at isDigit
  have isLetterOrDigit : (48 ≤ character.toNat ∧ character.toNat ≤ 57) ∨
      (97 ≤ character.toNat ∧ character.toNat ≤ 102) ∨
      (65 ≤ character.toNat ∧ character.toNat ≤ 70) := by
    rcases isDigit with (isDecimal | isLower) | isUpper
    · exact .inl isDecimal
    · exact .inr (.inl isLower)
    · exact .inr (.inr isUpper)
  omega

namespace Form

variable {α β : Type} {mark line : Text} {value : α} {next : Form α}

/-- What is read by one form after another begins with a reading of the first one. -/
theorem exists_mem_of_andThen {form : Form β} {next : β → Form α}
    (found : (form.andThen next).first? line = some value) :
    ∃ taken rest, (taken, rest) ∈ form line ∧ ∃ left, (value, left) ∈ next taken rest := by
  rcases Option.map_eq_some_iff.1 found with ⟨⟨result, left⟩, atHead, rfl⟩
  rcases List.mem_flatMap.1 (List.mem_of_head? atHead) with ⟨⟨taken, rest⟩, inForm, inNext⟩
  exact ⟨taken, rest, inForm, left, inNext⟩

theorem eq_of_mem_span1 {isMember : Char → Bool} {text taken rest : Text}
    (member : (taken, rest) ∈ span1 isMember text) :
    taken = text.takeWhile isMember ∧ rest = text.dropWhile isMember ∧ taken ≠ [] := by
  unfold span1 at member
  split at member
  · simp at member
  · simp_all [List.span_eq_takeWhile_dropWhile]

/-- A line that is read as blanks, a literal text and something else goes on with that text after
its leading blanks. -/
theorem dropWhile_of_span_literal
    (found : ((span isBlank).andThen fun _ => (literal mark).andThen fun _ => next).first? line =
      some value) : ∃ rest, line.dropWhile isBlank = mark ++ rest := by
  rcases exists_mem_of_andThen found with ⟨blanks, rest, inSpan, left, later⟩
  rcases List.mem_flatMap.1 later with ⟨⟨_, rest'⟩, inLiteral, _⟩
  simp only [span, List.span_eq_takeWhile_dropWhile, List.mem_singleton, Prod.mk.injEq] at inSpan
  exact ⟨rest', inSpan.2 ▸ mem_literal inLiteral⟩

/-- The same of a line that is read as at least one blank, a literal text and something else; its
first character is a blank. -/
theorem dropWhile_of_blanks_literal
    (found : (blanks.andThen fun _ => (literal mark).andThen fun _ => next).first? line =
      some value) :
    (∃ rest, line.dropWhile isBlank = mark ++ rest) ∧ ∃ head ∈ line.head?, isBlank head = true := by
  rcases exists_mem_of_andThen found with ⟨taken, rest, inBlanks, left, later⟩
  rcases List.mem_flatMap.1 later with ⟨⟨_, rest'⟩, inLiteral, _⟩
  rcases eq_of_mem_span1 inBlanks with ⟨taken_eq, rfl, nonempty⟩
  refine ⟨⟨rest', mem_literal inLiteral⟩, ?_⟩
  rcases line with _ | ⟨head, line⟩
  · exact absurd taken_eq nonempty
  · refine ⟨head, rfl, ?_⟩
    by_contra noBlank
    exact nonempty (by rw [taken_eq, List.takeWhile_cons_of_neg noBlank])

end Form

end CompiledViews.Text
