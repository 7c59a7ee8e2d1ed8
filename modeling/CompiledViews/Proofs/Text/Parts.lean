import CompiledViews.Text.Blank
import Mathlib.Data.List.Basic

/-!
# Parts of a text

What the operations on texts cut out of a text is a part of it: an unbroken run of its characters.
-/

namespace CompiledViews.Text

section decidable

-- without these, deciding may go through all characters that there are
variable (property : Char → Prop) [DecidablePred property]

instance (priority := high) decidableForallMem (text : Text) :
    Decidable (∀ character ∈ text, property character) :=
  List.decidableBAll property text

instance (priority := high) decidableForallMemOption (found : Option Char) :
    Decidable (∀ character ∈ found, property character) :=
  Option.decidableForallMem found

instance (priority := high) decidableExistsMemOption (found : Option Char) :
    Decidable (∃ character ∈ found, property character) :=
  Option.decidableExistsMem found

end decidable

theorem after?_eq_some_iff {start text rest : Text} :
    after? start text = some rest ↔ text = start ++ rest := by
  rw [after?, List.isPrefixOf?_eq_some_iff_append_eq, eq_comm]

theorem getD_after?_isInfix (start text : Text) : (after? start text).getD text <:+: text := by
  cases found : after? start text with
  | none => simp
  | some rest =>
      rw [after?_eq_some_iff] at found
      exact found ▸ (List.suffix_append start rest).isInfix

theorem splitOnce_eq {mark text left right : Text}
    (found : splitOnce mark text = some (left, right)) : text = left ++ mark ++ right := by
  induction text generalizing left right with
  | nil =>
      simp only [splitOnce, Option.ite_none_right_eq_some, Option.some.injEq,
        Prod.mk.injEq] at found
      rcases found with ⟨rfl, rfl, rfl⟩
      rfl
  | cons head text ih =>
      rw [splitOnce] at found
      split at found
      case h_1 rest here =>
        obtain ⟨rfl, rfl⟩ := by simpa using found
        simpa using after?_eq_some_iff.1 here
      case h_2 _ =>
        rcases Option.map_eq_some_iff.1 found with ⟨⟨before, after⟩, later, equal⟩
        obtain ⟨rfl, rfl⟩ := by simpa using equal
        simp [ih later]

theorem splitOnce_isInfix {mark text left right : Text}
    (found : splitOnce mark text = some (left, right)) : left <:+: text ∧ right <:+: text := by
  rw [splitOnce_eq found]
  exact ⟨⟨[], mark ++ right, by simp⟩, (List.suffix_append _ right).isInfix⟩

theorem splitLast_eq {mark : Char} {text left right : Text}
    (found : splitLast mark text = some (left, right)) : text = left ++ mark :: right := by
  induction text generalizing left right with
  | nil => simp [splitLast] at found
  | cons head text ih =>
      rw [splitLast] at found
      split at found
      case h_1 before after later =>
        obtain ⟨rfl, rfl⟩ := by simpa using found
        simp [ih later]
      case h_2 _ =>
        simp only [Option.ite_none_right_eq_some, Option.some.injEq, Prod.mk.injEq] at found
        rcases found with ⟨rfl, rfl, rfl⟩
        rfl

theorem afterLast_isInfix (mark : Char) (text : Text) : afterLast mark text <:+: text := by
  unfold afterLast
  split
  case h_1 left right found =>
    rw [splitLast_eq found]
    exact ⟨left ++ [mark], [], by simp⟩
  case h_2 _ => exact List.infix_rfl

theorem of_mem_replaceChar {old new character : Char} {text : Text}
    (member : character ∈ replaceChar old new text) : character = new ∨ character ∈ text := by
  obtain ⟨original, inText, equal⟩ := List.mem_map.1 member
  split at equal
  · exact .inl equal.symm
  · exact .inr (equal ▸ inText)

theorem dropRightWhile_isPrefix (unwanted : Char → Bool) (text : Text) :
    dropRightWhile unwanted text <+: text := by
  induction text with
  | nil => simp [dropRightWhile]
  | cons head text ih =>
      rw [dropRightWhile]
      split
      case h_1 _ =>
        split
        · exact List.nil_prefix
        · simp
      case h_2 _ => exact List.prefix_cons_inj head |>.2 ih

theorem dropRightWhile_concat_of_unwanted {unwanted : Char → Bool} {last : Char}
    (isUnwanted : unwanted last = true) (text : Text) :
    dropRightWhile unwanted (text ++ [last]) = dropRightWhile unwanted text := by
  induction text with
  | nil => simp [dropRightWhile, isUnwanted]
  | cons head text ih => rw [List.cons_append, dropRightWhile, ih, dropRightWhile]

/-- A blank at the end of a text goes when the text is trimmed. -/
theorem trim_concat {last : Char} (blank : isBlank last = true) (text : Text) :
    trim (text ++ [last]) = trim text := by
  rw [trim, trim, trimLeft, trimLeft, List.dropWhile_append]
  split
  case isTrue none =>
    rw [List.isEmpty_iff.1 none, List.dropWhile_cons_of_pos blank]
    rfl
  case isFalse _ => exact dropRightWhile_concat_of_unwanted blank _

theorem trim_isInfix (text : Text) : trim text <:+: text :=
  (dropRightWhile_isPrefix isBlank _).isInfix.trans (List.dropWhile_suffix _).isInfix

/-- The first piece of a text ends at the first separator. -/
theorem splitAll_append {separator : Char} {piece : Text} (absent : separator ∉ piece)
    (rest : Text) : splitAll separator (piece ++ separator :: rest) =
      piece :: splitAll separator rest := by
  induction piece with
  | nil => simp [splitAll]
  | cons head piece ih =>
      rw [List.mem_cons, not_or] at absent
      simp [splitAll, Ne.symm absent.1, ih absent.2]

/-- The pieces between separators are parts. -/
theorem infix_of_mem_splitAll {separator : Char} {text piece : Text}
    (member : piece ∈ splitAll separator text) : piece <:+: text := by
  suffices ∃ first others, splitAll separator text = first :: others ∧ first <+: text ∧
      ∀ other ∈ others, other <:+: text by
    rcases this with ⟨first, others, equal, isPrefix, isInfix⟩
    rcases List.mem_cons.1 (equal ▸ member) with rfl | isOther
    · exact isPrefix.isInfix
    · exact isInfix piece isOther
  clear member
  induction text with
  | nil => exact ⟨[], [], rfl, by simp, by simp⟩
  | cons head text ih =>
      rcases ih with ⟨first, others, equal, isPrefix, isInfix⟩
      rw [splitAll, equal]
      split
      · refine ⟨[], first :: others, rfl, by simp, fun other isOther => ?_⟩
        rcases List.mem_cons.1 isOther with rfl | isOther
        · exact List.infix_cons isPrefix.isInfix
        · exact List.infix_cons (isInfix other isOther)
      · exact ⟨head :: first, others, rfl, List.prefix_cons_inj head |>.2 isPrefix,
          fun other isOther => List.infix_cons (isInfix other isOther)⟩

/-- A word is a part of the unfinished word and the text after it. -/
theorem infix_of_mem_wordsFrom {current text word : Text} (member : word ∈ wordsFrom current text) :
    word <:+: current.reverse ++ text := by
  induction text generalizing current with
  | nil =>
      rw [wordsFrom] at member
      split at member
      · cases member
      · simp [List.mem_singleton.1 member]
  | cons head text ih =>
      rw [wordsFrom] at member
      split at member
      · split at member
        · exact ((ih member).trans (List.suffix_cons head text).isInfix).trans
            (List.suffix_append ..).isInfix
        · rcases List.mem_cons.1 member with rfl | later
          · exact (List.prefix_append ..).isInfix
          · exact ((ih later).trans (List.suffix_cons head text).isInfix).trans
              (List.suffix_append ..).isInfix
      · simpa using ih member

theorem infix_of_mem_words {text word : Text} (member : word ∈ words text) : word <:+: text :=
  infix_of_mem_wordsFrom member

end CompiledViews.Text
